import Scriptlet.Proofs.Parsing.Lines
import Scriptlet.Proofs.Script.Lines

/-! Texts that differ only in blanks, line breaks and comments have tokens that differ only in their
lines. Such texts are parsed alike, and on a fresh machine they run alike. -/
namespace Scriptlet

/-- What a token is, wherever it stands. -/
def Token.content (token : Token) : Kind × String :=
  (token.kind, token.lexeme)

theorem Token.mapLine_of_content {tokens others : List Token}
    (same : tokens.map content = others.map content) :
    tokens.map (·.mapLine noLine) = others.map (·.mapLine noLine) := by
  have made : Token.mapLine noLine = (fun found => ⟨found.1, found.2, 0⟩) ∘ content := rfl
  rw [made, ← List.map_map, ← List.map_map, same]

theorem tokenize_ne_nil (lexed : tokenize source = .ok tokens) : tokens ≠ [] := by
  obtain ⟨body, last, rfl, -, -⟩ := tokenize_tokens lexed
  exact List.append_ne_nil_of_right_ne_nil body (List.cons_ne_nil last [])

theorem Scope.sorted_mapLines (change : Int → Int) (scope : Scope) :
    (scope.mapLines change).sorted =
      scope.sorted.map fun binding => (binding.1, binding.2.mapLines change) := by
  unfold sorted
  symm
  apply List.map_mergeSort
  intro left _ right _
  rfl

theorem Machine.globals_mapLines (change : Int → Int) (machine : Machine) :
    (machine.mapLines change).globals =
      machine.globals.map fun binding => (binding.1, binding.2.mapLines change) := by
  unfold globals
  rw [show (machine.mapLines change).forest = machine.forest.mapLines change from rfl,
    Forest.getElem?_mapLines]
  cases machine.forest[globalScope]? with
  | none => rfl
  | some scope => exact scope.sorted_mapLines change

/-- An error that a run may be answered with does not speak of the lines of a tree. -/
theorem Error.message_mapLines {change : Int → Int} {error : Error}
    (expected : error.isLanguage ∨ error = .run .unfinished) :
    (error.mapLines change).message = error.message := by
  cases error with
  | lex | parse | render => rfl
  | run fault =>
    rcases expected with language | unfinished
    · exact fault.message_mapLines language
    · cases unfinished
      rfl

namespace Script

/-- Two ends of runs that differ at most in the lines that function bodies carry. -/
structure EndAlike (first second : Except Error Unit × Machine) : Prop where
  ended : first.1.mapError (·.mapLines noLine) = second.1.mapError (·.mapLines noLine)
  message : first.1.mapError Error.message = second.1.mapError Error.message
  output : first.2.output = second.2.output
  globals : first.2.globals.map (fun binding => (binding.1, binding.2.mapLines noLine)) =
    second.2.globals.map (fun binding => (binding.1, binding.2.mapLines noLine))

variable {limits : Limits} {program other : List Node} {machine : Machine}

/-- The message of a run is the one that it has without lines. -/
theorem interpret_message (limits : Limits) (wellFormed : Node.WellFormedProgram program)
    (sound : machine.Sound) :
    (unlined (interpret limits program machine)).1.mapError Error.message =
      (interpret limits program machine).1.mapError Error.message := by
  have expected := (interpret_sound limits wellFormed sound).2.1
  unfold unlined
  cases ended : (interpret limits program machine).1 with
  | ok _ => rfl
  | error error => exact congrArg Except.error (Error.message_mapLines (expected error ended))

theorem interpret_endAlike (limits : Limits) (wellFormed : Node.WellFormedProgram program)
    (wellFormed' : Node.WellFormedProgram other)
    (same : program.map (·.mapLines noLine) = other.map (·.mapLines noLine)) (sound : machine.Sound) :
    EndAlike (interpret limits program machine) (interpret limits other machine) := by
  have alike := interpret_unlined limits same machine
  have machines := congrArg Prod.snd alike
  constructor
  · exact congrArg Prod.fst alike
  · rw [← interpret_message limits wellFormed sound, ← interpret_message limits wellFormed' sound,
      alike]
  · exact (congrArg Machine.output machines :)
  · rw [← Machine.globals_mapLines, ← Machine.globals_mapLines]
    exact congrArg Machine.globals machines

/-- Texts whose tokens have the same kinds and the same spellings are either both programs, with trees
that differ only in lines, or are both rejected at the same token, for the same reason. As programs they
print the same on a fresh machine, end with the same error or none, and leave the same globals, but for
the lines of function bodies. -/
theorem layout_does_not_matter (limits : Limits) {source other : String} {tokens others : List Token}
    (lexed : tokenize source = .ok tokens) (lexedOther : tokenize other = .ok others)
    (same : tokens.map Token.content = others.map Token.content) :
    (∃ program program' after after', parseTokens limits tokens = .ok program after ∧
      parseTokens limits others = .ok program' after' ∧
      program.map (·.mapLines noLine) = program'.map (·.mapLines noLine) ∧
      EndAlike (interpret limits program .fresh) (interpret limits program' .fresh)) ∨
    (∃ error error' after after', parseTokens limits tokens = .error error after ∧
      parseTokens limits others = .error error' after' ∧
      error.mapLine noLine = error'.mapLine noLine ∧ after.pos = after'.pos) := by
  have parsed := parseTokens_mapLine limits noLine (tokenize_ne_nil lexed)
  rw [Token.mapLine_of_content same, parseTokens_mapLine limits noLine (tokenize_ne_nil lexedOther)]
    at parsed
  cases first : parseTokens limits tokens with
  | ok program after =>
    cases second : parseTokens limits others with
    | error => rw [first, second] at parsed; cases parsed
    | ok program' after' =>
      rw [first, second] at parsed
      injection parsed with trees
      have wellFormed := Grammar.parse_wellFormed
        (Grammar.parse_eq_ok.mpr ⟨tokens, after, lexed, first⟩)
      have wellFormed' := Grammar.parse_wellFormed
        (Grammar.parse_eq_ok.mpr ⟨others, after', lexedOther, second⟩)
      exact .inl ⟨program, program', after, after', rfl, rfl, trees.symm,
        interpret_endAlike limits wellFormed wellFormed' trees.symm .fresh⟩
  | error error after =>
    cases second : parseTokens limits others with
    | ok => rw [first, second] at parsed; cases parsed
    | error error' after' =>
      rw [first, second] at parsed
      injection parsed with errors streams
      have places := congrArg Stream.pos streams
      exact .inr ⟨error, error', after, after', rfl, rfl, errors.symm, places.symm⟩

/-- A text that prints and then fails, with a comment and a line break added. -/
theorem layout_does_not_matter_comment :
    let tokens : List Token := [⟨.printWord, "print", 1⟩, ⟨.nullWord, "null", 1⟩, ⟨.semicolon, ";", 1⟩,
      ⟨.identifier, "x", 1⟩, ⟨.semicolon, ";", 1⟩, ⟨.endOfInput, "", 1⟩]
    let others : List Token := [⟨.printWord, "print", 1⟩, ⟨.nullWord, "null", 1⟩, ⟨.semicolon, ";", 1⟩,
      ⟨.identifier, "x", 2⟩, ⟨.semicolon, ";", 2⟩, ⟨.endOfInput, "", 2⟩]
    tokenize "print null;x;" = .ok tokens ∧ tokenize "print null; // void\n x ;" = .ok others ∧
      ∃ program program' after after', parseTokens .standard tokens = .ok program after ∧
        parseTokens .standard others = .ok program' after' ∧
        EndAlike (interpret .standard program .fresh) (interpret .standard program' .fresh) := by
  intro tokens others
  have lexed : tokenize "print null;x;" = .ok tokens := rfl
  have lexedOther : tokenize "print null; // void\n x ;" = .ok others := rfl
  refine ⟨lexed, lexedOther, ?_⟩
  rcases layout_does_not_matter .standard lexed lexedOther rfl with
    ⟨program, program', after, after', first, second, -, alike⟩ | ⟨_, _, _, _, failed, -⟩
  · exact ⟨program, program', after, after', first, second, alike⟩
  · cases failed

end Script

end Scriptlet
