import Scriptlet.Proofs.Grammar.ShallowReading
import Scriptlet.Proofs.Grammar.Surface

/-! Chains of sums. The parser groups a chain on one level, with a loop; but the source form has a pair
of parentheses for each operator, each inside the next. So a text may parse under a depth limit that
its source form exceeds. -/
namespace Scriptlet.Grammar

open Scriptlet.Action Parse Phrase Node Scan

variable {turns depth parens count : Nat} {phrase inner : Phrase} {stream reached : Stream}
variable {error : ParseError} {tail : List Token} {property : Node → Prop} {limits : Limits}

/-- A phrase that is handed on to another one at its first token fails as that one does. -/
theorem body_opened {parse : Phrase → Parse Node} (listed : inner ∈ alternatives phrase)
    (opens : Kind.leftParen ∈ inner.openers) (here : stream.current.kind = .leftParen)
    (failed : parse inner stream = .error error reached) :
    body parse turns phrase stream = .error error reached := by
  have unmarked : accept [.bang, .minus] stream = .ok none stream := by simp [accept_run, here]
  cases phrase with
  | declaration => exact (declarationBody_choice parse listed (here ▸ opens)).trans failed
  | statement => exact (statementBody_choice parse listed (here ▸ opens)).trans failed
  | primary => cases List.mem_singleton.mp listed; exact absurd opens (by decide)
  | expression | assignment | equality | comparison | term | factor | unary | call =>
    cases List.mem_singleton.mp listed
    simp only [body, assignmentBody, chain, unaryBody, callBody, bind_run, unmarked, failed]
  | _ => cases listed

theorem primaryBody_opened {parse : Phrase → Parse Node} (here : stream.current.kind = .leftParen)
    (failed : parse .expression stream.next = .error error reached) :
    primaryBody parse stream = .error error reached := by
  simp only [primaryBody, bind_run, current_run, here, advance_run, failed]

theorem expressionStatementBody_opened {parse : Phrase → Parse Node}
    (failed : parse .expression stream = .error error reached) :
    expressionStatementBody parse stream = .error error reached := by
  simp only [expressionStatementBody, bind_run, current_run, failed]

/-- The parser of the phrase reaches the depth limit at an opening parenthesis. -/
def Exhausts (turns depth : Nat) (phrase : Phrase) (stream : Stream) : Prop :=
  ∃ reached, parseWithin turns depth phrase stream = .error .depthExceeded reached ∧
    reached.current = fixed .leftParen

theorem Exhausts.above (exhausts : Exhausts turns depth inner stream)
    (listed : inner ∈ alternatives phrase) (opens : Kind.leftParen ∈ inner.openers)
    (here : stream.current.kind = .leftParen) : Exhausts turns (depth + 1) phrase stream := by
  obtain ⟨reached, failed, atParen⟩ := exhausts
  exact ⟨reached, body_opened listed opens here failed, atParen⟩

/-- The phrases from an expression down to an operand. -/
def ranked : List Phrase :=
  [.expression, .assignment, .equality, .comparison, .term, .factor, .unary, .call, .primary]

theorem exists_below : ∀ phrase ∈ ranked, phrase = .primary ∨
    ∃ inner ∈ ranked, inner ∈ alternatives phrase ∧ Kind.leftParen ∈ inner.openers ∧
      phrase.rank = inner.rank + 1 := by
  decide

/-- Each parenthesis takes nine levels, from the expression to the operand that it opens. -/
theorem parens_exhaust (within : phrase ∈ ranked) (few : depth + 9 ≤ 9 * parens + phrase.rank)
    (split : stream.remaining = List.replicate (parens + 1) (fixed .leftParen) ++ tail) :
    Exhausts turns depth phrase stream := by
  induction depth generalizing parens phrase stream with
  | zero => exact ⟨stream, rfl, Stream.current_of_remaining split⟩
  | succ depth ih =>
    have here : stream.current.kind = .leftParen := by rw [Stream.current_of_remaining split]; rfl
    rcases exists_below phrase within with rfl | ⟨inner, below, listed, opens, same⟩
    · cases parens with
      | zero => simp [rank] at few
      | succ parens =>
        have onward : stream.next.remaining = List.replicate (parens + 1) (fixed .leftParen) ++ tail :=
          Stream.remaining_next_of_cons split (by decide)
        have fewer : depth + 9 ≤ 9 * parens + Phrase.expression.rank := by
          simp only [rank] at few ⊢
          omega
        obtain ⟨reached, failed, atParen⟩ := ih (by decide) fewer onward
        exact ⟨reached, primaryBody_opened here failed, atParen⟩
    · exact (ih below (by omega) split).above listed opens here

/-- A statement that starts with so many parentheses is cut off by a limit of nine levels for each of
them but the last. -/
theorem declaration_exhausts (few : depth ≤ 9 * parens)
    (split : stream.remaining = List.replicate (parens + 1) (fixed .leftParen) ++ tail) :
    Exhausts turns (depth + 3) .declaration stream := by
  have here : stream.current.kind = .leftParen := by rw [Stream.current_of_remaining split]; rfl
  have deep : depth + 9 ≤ 9 * parens + Phrase.expression.rank := Nat.add_le_add_right few 9
  have expression : Exhausts turns depth .expression stream := parens_exhaust (by decide) deep split
  obtain ⟨reached, failed, atParen⟩ := expression
  have statement : Exhausts turns (depth + 1) .expressionStatement stream :=
    ⟨reached, expressionStatementBody_opened failed, atParen⟩
  have handed : Exhausts turns (depth + 2) .statement stream :=
    statement.above (by decide) (by decide) here
  exact handed.above (by decide) (by decide) here

/-- A program whose first declaration reaches the depth limit. -/
theorem program_exhausted (exhausts : Exhausts stream.size depth .declaration stream)
    (more : stream.current.kind ≠ .endOfInput) :
    ∃ reached, Parse.program depth stream = .error (.nestedTooDeeply 1) reached := by
  obtain ⟨reached, failed, atParen⟩ := exhausts
  have atTop : topLevel stream.size depth stream = .error (.nestedTooDeeply 1) reached := by
    rw [topLevel, failed]
    simp only [atParen, fixed]
  have began : programFrom stream.size depth #[] stream.size stream =
      .error (.nestedTooDeeply 1) reached := by
    rw [Stream.size] at atTop ⊢
    simp [programFrom, bind_run, check_run, more, atTop]
  exact ⟨reached, by simp only [Parse.program, bind_run, get_run, began]⟩

/-- A text that starts with so many parentheses nests too deeply for such a limit. -/
theorem parse_exhausted {source : String} {tokens : List Token} (lexed : tokenize source = .ok tokens)
    (split : (Stream.ofTokens tokens).remaining = List.replicate (parens + 1) (fixed .leftParen) ++ tail)
    (some : 3 ≤ limits.depth) (few : limits.depth ≤ 9 * parens + 3) :
    Script.parse limits source = .error (.parse (.nestedTooDeeply 1)) := by
  obtain ⟨depth, deep⟩ := Nat.exists_eq_add_of_le' some
  have exhausts : Exhausts (Stream.ofTokens tokens).size (depth + 3) .declaration
      (Stream.ofTokens tokens) := declaration_exhausts (by omega) split
  have opens := Stream.current_of_remaining split
  obtain ⟨reached, failed⟩ := program_exhausted exhausts (by rw [opens]; decide)
  rw [← deep] at failed
  rw [Script.parse, lexed]
  simp only [Script.parseTokens, failed]

/-- The tokens of `a + a + … + a` with so many operators. -/
def sumTokens : Nat → List Token
  | 0 => [named "a"]
  | count + 1 => sumTokens count ++ fixed .plus :: [named "a"]

def sumNode : Nat → Node
  | 0 => .reference 1 "a"
  | count + 1 => .binary 1 "+" (sumNode count) (.reference 1 "a")

theorem sumNode_fits (count room : Nat) : (sumNode count).fits room = decide (count < room) := by
  induction count generalizing room with
  | zero => cases room <;> simp [sumNode, Node.fits]
  | succ count ih =>
    cases room with
    | zero => simp [Node.fits]
    | succ room => cases room <;> simp [sumNode, Node.fits, ih]

theorem sumNode_throughout (name : property (.reference 1 "a"))
    (sum : ∀ count, property (sumNode (count + 1))) (count : Nat) :
    (sumNode count).Throughout property := by
  have leaf : (Node.reference 1 "a").Throughout property := .of name (by simp [children])
  induction count with
  | zero => exact leaf
  | succ count ih => exact .of (sum count) (by simpa [sumNode, children] using ⟨ih, leaf⟩)

theorem sumTokens_written (count : Nat) : Written (sumTokens count) := by
  have name : Written [named "a"] := .name (by decide +kernel) .nil
  induction count with
  | zero => exact name
  | succ count ih => exact ih.append (.symbol rfl name)

theorem operand_read (turns : Nat) : ReadFrom turns 3 .factor [named "a"] (.reference 1 "a") := by
  have primary : ReadFrom turns 0 .primary [named "a"] (.reference 1 "a") :=
    ⟨.reference rfl, fun _ _ => .of_reads (reference_reads rfl) ⟨rfl, by decide⟩⟩
  exact ((primary.above .call (by decide)).above .unary (by decide)).above .factor (by decide)

theorem sum_derives (count : Nat) : Derives .term false (sumTokens count) (sumNode count) := by
  have operand := (operand_read 0).1
  induction count with
  | zero => exact .alternative (by decide) operand
  | succ count ih =>
    have listed : (fixed .plus).kind ∈ operators .term := by decide
    exact .binary (by decide) ih listed operand

/-- One turn of the loop for each operator: the depth does not grow with the chain. -/
theorem sum_reaches (depth count : Nat) :
    Reaches turns (chain (parseWithin turns (depth + 4)) .factor (operators .term) turns)
      (chainRest (parseWithin turns (depth + 4)) .factor (operators .term)) (Stops .factor false)
      (sumTokens count) (sumNode count) := by
  have operand := ((operand_read turns).2 (depth + 3) (Nat.le_add_left 3 depth)).reads
  induction count with
  | zero => exact chain_starts operand
  | succ count ih =>
    have listed : (fixed .plus).kind ∈ operators .term := by decide
    exact chain_continues ih listed (by decide) (.of_kind rfl (by decide)) operand

theorem sum_read (turns count : Nat) :
    ReadFrom turns 8 .expression (sumTokens count) (sumNode count) := by
  have term : ReadFrom turns 4 .term (sumTokens count) (sumNode count) := by
    refine ⟨sum_derives count, fun depth enough => ?_⟩
    obtain ⟨depth, rfl⟩ := Nat.exists_eq_add_of_le' enough
    exact .of_chain (by decide) (by decide) (sum_reaches depth count)
  have equality := (term.above .comparison (by decide)).above .equality (by decide)
  exact (equality.above .assignment (by decide)).above .expression (by decide)

/-- The source form of a chain starts with a parenthesis for each operator. -/
theorem sum_shows (count : Nat) : ∃ text tail, (sumNode count).surfacePart = .ok text ∧
    Shows text.toList (List.replicate count (fixed .leftParen) ++ tail) := by
  have name : Shows "a".toList [named "a"] := .named (by decide +kernel)
  have plus : Shows "+".toList [fixed .plus] := .fixed "+" rfl rfl
  induction count with
  | zero => exact ⟨"a", [named "a"], rfl, name⟩
  | succ count ih =>
    obtain ⟨text, tail, surface, shows⟩ := ih
    have whole := (shows.spaced (plus.spaced name)).parenthesized
    refine ⟨"(" ++ text ++ " " ++ "+" ++ " " ++ "a" ++ ")",
      tail ++ [fixed .plus, named "a", fixed .rightParen], ?_, ?_⟩
    · rw [sumNode, surfacePart, surface]
      rfl
    · simpa [List.replicate_succ] using whole

/-- A limit of nine levels for each operator is not enough for the source form of a chain. -/
theorem sum_form_too_deep (some : 3 ≤ limits.depth) (few : limits.depth ≤ 9 * count + 3) :
    ∃ text, (Node.exprStmt 1 (sumNode (count + 1))).surface = .ok text ∧
      Script.parse limits text = .error (.parse (.nestedTooDeeply 1)) := by
  obtain ⟨text, tail, surface, shows⟩ := sum_shows (count + 1)
  let tokens := List.replicate (count + 1) (fixed .leftParen) ++ tail ++ [fixed .semicolon]
  have ended : Shows (text ++ ";").toList tokens := by simpa [tokens] using shows.ended
  have split : (Stream.ofTokens (tokens ++ [⟨.endOfInput, "", 1⟩])).remaining =
      List.replicate (count + 1) (fixed .leftParen) ++
        (tail ++ [fixed .semicolon, ⟨.endOfInput, "", 1⟩]) := by
    rw [Stream.remaining_ofTokens rfl]
    simp [tokens]
  refine ⟨text ++ ";", ?_, parse_exhausted (tokenize_shown ended) split some few⟩
  rw [surface_simple rfl, surfacePart, surface]
  rfl

/-- Under every limit that leaves room for a short statement some text parses while the source form of
its statement does not, although the form shows the grouping. -/
theorem grouping_outgrows_limit (some : 12 ≤ limits.depth) (few : limits.depth ≤ 9 * count + 3) :
    let statement := Node.exprStmt 1 (sumNode (count + 1))
    Script.parse limits (statementSource (sumTokens (count + 1))) = .ok [statement] ∧
      isSimple statement ∧ statement.Throughout ShowsGrouping ∧ statement.Throughout ReadsBack ∧
      ∃ text, statement.surface = .ok text ∧
        Script.parse limits text = .error (.parse (.nestedTooDeeply 1)) := by
  intro statement
  have throughout : ∀ property : Node → Prop, property statement → property (.reference 1 "a") →
      (∀ count, property (sumNode (count + 1))) → statement.Throughout property := by
    intro property whole name sum
    exact .of whole (by simpa [statement, children] using sumNode_throughout name sum (count + 1))
  refine ⟨statementSource_parses (fun turns => sum_read turns (count + 1)) (sumTokens_written _) some,
    rfl, throughout _ trivial trivial fun count => ?_, throughout _ trivial trivial fun _ => trivial,
    sum_form_too_deep (Nat.le_of_add_left_le some) few⟩
  cases count <;> simp [sumNode, ShowsGrouping, kind?]

/-- A sum of a thousand and one names, which is shallow enough to be shown. -/
theorem grouping_outgrows_limit_thousand :
    let statement := Node.exprStmt 1 (sumNode 1000)
    Script.parse .standard (statementSource (sumTokens 1000)) = .ok [statement] ∧
      isSimple statement ∧ statement.Throughout ShowsGrouping ∧ statement.Throughout ReadsBack ∧
      Node.fitAll Limits.standard.depth [statement] ∧
      ∃ text, statement.surface = .ok text ∧
        Script.parse .standard text = .error (.parse (.nestedTooDeeply 1)) := by
  intro statement
  have fits : Node.fitAll (4999 + 1) [statement] := by
    simp [statement, Node.fitAll, Node.fits, sumNode_fits]
  have some : 12 ≤ Limits.standard.depth := by decide
  have few : Limits.standard.depth ≤ 9 * 999 + 3 := by decide
  obtain ⟨parsed, simple, grouping, readsBack, tooDeep⟩ := grouping_outgrows_limit some few
  exact ⟨parsed, simple, grouping, readsBack, fits, tooDeep⟩

end Scriptlet.Grammar
