import Scriptlet.Script
import Scriptlet.Proofs.Grammar.Completeness
import Scriptlet.Proofs.Grammar.Soundness
import Scriptlet.Proofs.Number.Reading
import Scriptlet.Proofs.Parsing.Outcome

/-! Whole programs: the parser accepts exactly the grammar, and builds the tree it assigns. -/
namespace Scriptlet.Grammar

open Scriptlet.Action Parse Phrase

theorem topLevel_eq_ok : topLevel turns depth stream = .ok node after ↔
    Phrase.declaration.parseWithin turns depth stream = .ok node after := by
  unfold topLevel
  cases outcome : Phrase.declaration.parseWithin turns depth stream with
  | ok => simp
  | error error => cases error <;> simp

theorem programFrom_sound {found result : Array Node} (terminated : stream.Terminated)
    (success : programFrom limit depth found turns stream = .ok result after)
    (enough : stream.remaining.length ≤ turns) :
    ∃ parts : List (List Token × Node),
      (∀ part ∈ parts, Derives .declaration false part.1 part.2) ∧
      stream.remaining = (parts.map Prod.fst).flatten ++ after.remaining ∧
      result.toList = found.toList ++ parts.map Prod.snd ∧ after.current.kind = .endOfInput := by
  induction turns generalizing stream found with
  | zero => simp [Stream.remaining] at enough
  | succ turns ih =>
    rw [programFrom, bind_of_ok _ (check_run _ stream)] at success
    by_cases ended : stream.current.kind = .endOfInput
    · simp only [ended, decide_true, ↓reduceIte, pure_eq_ok] at success
      obtain ⟨rfl, rfl⟩ := success
      exact ⟨[], by simp, by simp, by simp, ended⟩
    · simp only [ended, decide_false, Bool.false_eq_true, ↓reduceIte, bind_eq_ok] at success
      obtain ⟨node, middle, atPart, success⟩ := success
      have parsed := parseWithin_sound _ _ terminated (topLevel_eq_ok.mp atPart)
      have terminated := parsed.terminated terminated
      obtain ⟨span, split, derivation⟩ := parsed.anywhere
      have some := List.length_pos_iff.mpr derivation.span_ne_nil
      have shorter : middle.remaining.length ≤ turns := by
        simp only [split, List.length_append] at enough
        omega
      obtain ⟨parts, each, restSplit, gathered, atEnd⟩ := ih terminated success shorter
      refine ⟨(span, node) :: parts, by simpa [derivation] using each, ?_, ?_, atEnd⟩
      · simp [split, restSplit]
      · simp [gathered]

theorem programFrom_complete {last : Token} {parts : List (List Token × Node)} (found : Array Node)
    (derivations : ∀ part ∈ parts, Derives .declaration false part.1 part.2)
    (reads : ∀ part ∈ parts,
      Reads turns (parseWithin turns depth .declaration) (Stops .declaration false) part.1 part.2)
    (ended : last.kind = .endOfInput) (enough : parts.length < loops)
    (place : stream.At turns ((parts.map Prod.fst).flatten ++ [last])) :
    ∃ after, programFrom turns depth found loops stream =
      .ok (found ++ (parts.map Prod.snd).toArray) after := by
  induction parts generalizing stream found loops with
  | nil =>
    refine ⟨stream, ?_⟩
    cases loops with
    | zero => simp at enough
    | succ loops => simp [programFrom, bind_run, check_at _ place, ended, pure_run]
  | cons part parts ih =>
    cases loops with
    | zero => simp at enough
    | succ loops =>
      have others : ∀ part ∈ parts, Derives .declaration false part.1 part.2 :=
        fun part member => derivations part (by simp [member])
      obtain ⟨following, tail, shape, stops⟩ :=
        following_declaration [] others (show last.kind ≠ .elseWord by simp [ended])
      simp only [List.map_cons, List.flatten_cons, List.append_assoc] at place
      obtain ⟨first, more, same, opens⟩ := (derivations part (by simp)).first_token
      have notEnd : first.kind ≠ .endOfInput := fun same => absurd (same ▸ opens) (by decide)
      have atFirst := check_at .endOfInput (same ▸ place)
      obtain ⟨_, atPart, place⟩ := reads part (by simp) (shape ▸ place) stops
      obtain ⟨after, atRest⟩ := ih (found.push part.2) others
        (fun part member => reads part (by simp [member])) (Nat.lt_of_succ_lt_succ enough)
        (shape ▸ place)
      refine ⟨after, ?_⟩
      simp [programFrom, bind_run, atFirst, notEnd, topLevel_eq_ok.mpr atPart, atRest]

variable {source : String} {limits : Limits} {tokens : List Token} {program : List Node}

/-- Only the last token of a source is the end of the input, so a place that stands before such a
token is the last one. -/
theorem remaining_at_end {body before : List Token} {last : Token} {stream : Stream}
    (split : body ++ [last] = before ++ stream.remaining)
    (ended : stream.current.kind = .endOfInput) (real : ∀ token ∈ body, token.kind ≠ .endOfInput) :
    stream.remaining = [last] := by
  unfold Stream.remaining at split ⊢
  rcases List.eq_nil_or_concat stream.ahead with none | ⟨middle, final, some⟩
  · rw [none] at split ⊢
    obtain ⟨-, same⟩ := List.append_inj' split rfl
    exact same.symm
  · have whole : body ++ [last] = (before ++ stream.current :: middle) ++ [final] := by
      simpa [some] using split
    obtain ⟨rfl, -⟩ := List.append_inj' whole rfl
    exact absurd ended (real _ (by simp))

theorem parse_eq_ok : Script.parse limits source = .ok program ↔
    ∃ tokens after, tokenize source = .ok tokens ∧
      Script.parseTokens limits tokens = .ok program after := by
  unfold Script.parse
  cases tokenize source with
  | error => simp
  | ok tokens =>
    cases parsed : Script.parseTokens limits tokens with
    | error => simp [parsed]
    | ok => simp [parsed]

theorem parseTokens_sound (lexed : tokenize source = .ok tokens)
    (success : Script.parseTokens limits tokens = .ok program after) : Program tokens program := by
  obtain ⟨body, last, rfl, ended, spelled⟩ := tokenize_tokens lexed
  have whole : (Stream.ofTokens (body ++ [last])).remaining = body ++ [last] :=
    Stream.remaining_ofTokens ended
  have terminated := Stream.terminated_of_remaining whole ended
  rw [Script.parseTokens, Parse.program, bind_of_ok _ (get_run _)] at success
  simp only [bind_eq_ok, pure_eq_ok] at success
  obtain ⟨found, _, success, rfl, rfl⟩ := success
  obtain ⟨parts, each, split, gathered, atEnd⟩ := programFrom_sound terminated success (Nat.le_refl _)
  have final := remaining_at_end (whole.symm.trans split) atEnd
    fun token member => (spelled token member).kind_ne_end
  refine ⟨parts, last, each, ended, ?_, by simpa using gathered⟩
  rw [← whole, split, final]

/-- A program is read as soon as each of its declarations is. -/
theorem parseTokens_of_reads {last : Token} {parts : List (List Token × Node)} (limits : Limits)
    (derivations : ∀ part ∈ parts, Derives .declaration false part.1 part.2)
    (reads : ∀ turns, ∀ part ∈ parts, Reads turns (parseWithin turns limits.depth .declaration)
      (Stops .declaration false) part.1 part.2) (ended : last.kind = .endOfInput) :
    ∃ after, Script.parseTokens limits ((parts.map Prod.fst).flatten ++ [last]) =
      .ok (parts.map Prod.snd) after := by
  have whole : (Stream.ofTokens ((parts.map Prod.fst).flatten ++ [last])).remaining =
      (parts.map Prod.fst).flatten ++ [last] := Stream.remaining_ofTokens ended
  rw [Script.parseTokens, Parse.program, bind_of_ok _ (get_run _)]
  generalize Stream.ofTokens ((parts.map Prod.fst).flatten ++ [last]) = stream at whole
  have size : stream.size = (parts.map Prod.fst).flatten.length + 1 := by
    rw [← Stream.length_remaining, whole, List.length_append, List.length_singleton]
  have count := length_le_flatten fun part member => (derivations part member).span_ne_nil
  have place : stream.At stream.size ((parts.map Prod.fst).flatten ++ [last]) :=
    ⟨whole, by rw [← whole]; exact Nat.le_refl _⟩
  obtain ⟨after, atParts⟩ := programFrom_complete #[] derivations (reads stream.size) ended
    (show parts.length < stream.size by omega) place
  exact ⟨after, by simp [bind_run, atParts, pure_run]⟩

theorem parseTokens_complete (limits : Limits) (derivation : Program tokens program)
    (enough : 10 * tokens.length + 10 ≤ limits.depth) :
    ∃ after, Script.parseTokens limits tokens = .ok program after := by
  obtain ⟨parts, last, derivations, ended, rfl, rfl⟩ := derivation
  refine parseTokens_of_reads limits derivations (fun turns part member => ?_) ended
  have small := length_part_le member
  simp only [List.length_append, List.length_singleton] at enough
  obtain ⟨depth, deep⟩ : ∃ depth, limits.depth = depth + 1 := ⟨limits.depth - 1, by omega⟩
  rw [deep]
  refine ((derivations part member).complete turns depth ?_).reads
  simp only [rank]
  omega

/-- The grammar is unambiguous. -/
theorem Program.unique {other : List Node} (first : Program tokens program)
    (second : Program tokens other) : program = other := by
  let limits : Limits := ⟨10 * tokens.length + 10, 0⟩
  obtain ⟨_, atFirst⟩ := parseTokens_complete limits first (Nat.le_refl _)
  obtain ⟨_, atSecond⟩ := parseTokens_complete limits second (Nat.le_refl _)
  rw [atFirst] at atSecond
  cases atSecond
  rfl

/-- Numeric tokens that are spelled as such read as numbers. -/
theorem readable_of_spelled {body : List Token} {last : Token} (ended : last.kind = .endOfInput)
    (spelled : ∀ token ∈ body, Lexeme.Spelled token.kind token.lexeme.toList) :
    (Stream.ofTokens (body ++ [last])).Readable := by
  intro token member isNumber
  rw [Stream.remaining_ofTokens ended] at member
  rcases List.mem_append.mp member with inBody | isLast
  · have literal := spelled token inBody
    rw [isNumber] at literal
    obtain ⟨value, found, -⟩ := Number.read?_spelled literal
    rw [found]
    rfl
  · rw [List.mem_singleton.mp isLast, ended] at isNumber
    cases isNumber

/-- The numeric tokens of a source read as numbers. -/
theorem readable_ofTokens (lexed : tokenize source = .ok tokens) :
    (Stream.ofTokens tokens).Readable := by
  obtain ⟨body, last, rfl, ended, spelled⟩ := tokenize_tokens lexed
  exact readable_of_spelled ended spelled

/-- Tokens that the grammar takes for an expression are read as one. -/
theorem parseExpression_of_derives {limits : Limits} {source : String} {span : List Token} {node : Node}
    (lexed : tokenize source = .ok (span ++ [⟨.endOfInput, "", 1⟩]))
    (derivation : Derives .expression false span node) (enough : 10 * span.length + 10 ≤ limits.depth) :
    Script.parseExpression limits source = .ok node := by
  obtain ⟨depth, deep⟩ : ∃ depth, limits.depth = depth + 1 := ⟨limits.depth - 1, by omega⟩
  let last : Token := ⟨.endOfInput, "", 1⟩
  have whole : (Stream.ofTokens (span ++ [last])).remaining = span ++ [last] :=
    Stream.remaining_ofTokens rfl
  have parsed : ∃ after, Parse.phrase limits.depth .expression (Stream.ofTokens (span ++ [last])) =
      .ok node after := by
    generalize Stream.ofTokens (span ++ [last]) = stream at whole
    have place : stream.At stream.size (span ++ [last]) :=
      ⟨whole, by rw [← whole]; exact Nat.le_refl _⟩
    have complete := derivation.complete stream.size depth (by simp only [rank]; omega)
    obtain ⟨after, success, -⟩ := complete.reads place (.of_kind rfl (by decide))
    rw [deep]
    exact ⟨after, success⟩
  obtain ⟨after, parsed⟩ := parsed
  rw [Script.parseExpression, lexed]
  dsimp only
  rw [parsed]

/-- The parser accepts exactly the grammar, and returns the program that the grammar assigns to the
tokens, as long as the depth limit is not reached; and no program of the grammar reaches a limit of
ten for each token. -/
theorem parseTokens_iff_program (limits : Limits) (program : List Node)
    (lexed : tokenize source = .ok tokens) :
    ((∀ line after, Script.parseTokens limits tokens ≠ .error (.nestedTooDeeply line) after) →
      ((∃ after, Script.parseTokens limits tokens = .ok program after) ↔ Program tokens program)) ∧
    (Program tokens program → 10 * tokens.length + 10 ≤ limits.depth →
      ∃ after, Script.parseTokens limits tokens = .ok program after) := by
  refine ⟨fun shallow => ⟨fun ⟨after, success⟩ => parseTokens_sound lexed success, ?_⟩,
    parseTokens_complete limits⟩
  intro derivation
  -- the program is read under a higher limit, which gives the same result
  let roomy : Limits := { limits with depth := limits.depth + (10 * tokens.length + 10) }
  obtain ⟨after, success⟩ := parseTokens_complete roomy derivation (Nat.le_add_left _ _)
  have more : limits.depth ≤ roomy.depth := Nat.le_add_right _ _
  obtain ⟨-, agrees⟩ := program_agree more (Stream.ofTokens tokens) (readable_ofTokens lexed)
  rcases agrees with ⟨_, reached, ⟨line, rfl⟩, failed⟩ | same
  · exact absurd failed (shallow line reached)
  · exact ⟨after, same.trans success⟩

/-- The inner `if` takes the `else`. -/
theorem parseTokens_iff_program_danglingElse :
    ∃ tokens, tokenize "if (a) if (b) c; else d;" = .ok tokens ∧
      Program tokens [.ifStmt 1 (.reference 1 "a")
        (.ifStmt 1 (.reference 1 "b") (.exprStmt 1 (.reference 1 "c"))
          (.exprStmt 1 (.reference 1 "d"))) .absent] := by
  have lexed : tokenize "if (a) if (b) c; else d;" = .ok
      [⟨.ifWord, "if", 1⟩, ⟨.leftParen, "(", 1⟩, ⟨.identifier, "a", 1⟩, ⟨.rightParen, ")", 1⟩,
       ⟨.ifWord, "if", 1⟩, ⟨.leftParen, "(", 1⟩, ⟨.identifier, "b", 1⟩, ⟨.rightParen, ")", 1⟩,
       ⟨.identifier, "c", 1⟩, ⟨.semicolon, ";", 1⟩, ⟨.elseWord, "else", 1⟩, ⟨.identifier, "d", 1⟩,
       ⟨.semicolon, ";", 1⟩, ⟨.endOfInput, "", 1⟩] := rfl
  refine ⟨_, lexed, ((parseTokens_iff_program Limits.standard _ lexed).1 ?_).mp ?_⟩
  · intro line after failed
    cases failed
  · exact ⟨_, by rfl⟩

end Scriptlet.Grammar
