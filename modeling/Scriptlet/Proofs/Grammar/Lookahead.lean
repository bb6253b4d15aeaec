import Scriptlet.Proofs.Grammar.Rules

/-! One token of lookahead: the kinds of token that a phrase can start with, and those that would
carry a complete phrase on. -/
namespace Scriptlet

namespace Phrase

/-- The first tokens of a primary expression. -/
def primaryOpeners : List Kind :=
  [.number, .trueWord, .falseWord, .nullWord, .identifier, .leftParen, .matchWord]

/-- The first tokens of an expression. -/
def expressionOpeners : List Kind :=
  .bang :: .minus :: primaryOpeners

/-- The first tokens of a statement that starts with a mark of its own. -/
def statementOpeners : List Kind :=
  [.printWord, .ifWord, .whileWord, .forWord, .leftBrace, .returnWord]

/-- The kinds of token that a phrase can start with. -/
def openers : Phrase → List Kind
  | .variableDeclaration => [.varWord]
  | .functionDeclaration => [.fnWord]
  | .printStatement => [.printWord]
  | .ifStatement => [.ifWord]
  | .whileStatement => [.whileWord]
  | .forStatement => [.forWord]
  | .returnStatement => [.returnWord]
  | .block => [.leftBrace]
  | .matching => [.matchWord]
  | .primary | .call => primaryOpeners
  | .declaration => .varWord :: .fnWord :: (statementOpeners ++ expressionOpeners)
  | .statement => statementOpeners ++ expressionOpeners
  | _ => expressionOpeners

/-- The kinds of token that a complete phrase would take in if they came next. -/
def continuations : Phrase → List Kind
  | .unary | .call => [.leftParen]
  | .factor => [.star, .slash, .leftParen]
  | .term => [.plus, .minus, .star, .slash, .leftParen]
  | .comparison =>
    [.greater, .greaterEqual, .less, .lessEqual, .plus, .minus, .star, .slash, .leftParen]
  | .equality =>
    [.equal, .notEqual, .greater, .greaterEqual, .less, .lessEqual, .plus, .minus, .star, .slash,
     .leftParen]
  | .expression | .assignment =>
    [.assign, .equal, .notEqual, .greater, .greaterEqual, .less, .lessEqual, .plus, .minus, .star,
     .slash, .leftParen]
  | _ => []

theorem openers_alternative (phrase : Phrase) :
    ∀ inner ∈ alternatives phrase, ∀ kind ∈ inner.openers, kind ∈ phrase.openers := by
  cases phrase <;> decide

theorem continuations_alternative (phrase : Phrase) :
    ∀ inner ∈ alternatives phrase, ∀ kind ∈ inner.continuations, kind ∈ phrase.continuations := by
  cases phrase <;> decide

theorem unary_opens : ∀ kind ∈ [Kind.bang, .minus], kind ∈ openers .unary := by
  decide

end Phrase

theorem Kind.constant_opens {kind : Kind} (value : kind.constant? = some scalar) :
    kind ∈ Phrase.openers .primary := by
  cases kind <;> first | decide | cases value

namespace Grammar

theorem Derives.first_token (derivation : Derives phrase beforeElse span node) :
    ∃ first rest, span = first :: rest ∧ first.kind ∈ phrase.openers := by
  induction derivation with
  | alternative listed _ ih =>
    obtain ⟨first, rest, same, opens⟩ := ih
    exact ⟨first, rest, same, Phrase.openers_alternative _ _ listed _ opens⟩
  | expressionStatement _ _ ih =>
    obtain ⟨first, rest, same, opens⟩ := ih
    cases same
    exact ⟨_, _, rfl, opens⟩
  | assignment _ _ _ ih _ | binary _ _ _ _ ih _ | call _ _ _ _ _ _ ih _ =>
    obtain ⟨first, rest, rfl, opens⟩ := ih
    exact ⟨first, _, rfl, opens⟩
  | unary listed => exact ⟨_, _, rfl, Phrase.unary_opens _ listed⟩
  | constant value => exact ⟨_, _, rfl, Kind.constant_opens value⟩
  | _ => exact ⟨_, _, rfl, by simp [*, Phrase.openers, Phrase.primaryOpeners]⟩

/-- The next token neither carries the phrase on nor is an `else` that the phrase could take. -/
def Stops (phrase : Phrase) (beforeElse : Bool) (next : Token) : Prop :=
  next.kind ∉ phrase.continuations ∧ (beforeElse = false → next.kind ≠ .elseWord)

theorem Stops.of_kind {phrase : Phrase} {next : Token} (same : next.kind = kind)
    (free : kind ∉ phrase.continuations ∧ kind ≠ .elseWord) : Stops phrase beforeElse next :=
  ⟨same ▸ free.1, fun _ => same ▸ free.2⟩

theorem Stops.alternative {inner : Phrase} (stops : Stops phrase beforeElse next)
    (listed : inner ∈ Phrase.alternatives phrase) : Stops inner beforeElse next :=
  ⟨fun continues => stops.1 (Phrase.continuations_alternative _ _ listed _ continues), stops.2⟩

end Grammar

end Scriptlet
