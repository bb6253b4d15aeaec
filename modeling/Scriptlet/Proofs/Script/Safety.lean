import Scriptlet.Proofs.Grammar.Image
import Scriptlet.Proofs.Machine.Safety
import Scriptlet.Proofs.Parsing.Requests

/-! Texts that are run one after the other never meet a failure that is not one of the language. -/
namespace Scriptlet

open Scriptlet.Action Node

/-- The errors that a text may be answered with. -/
def Error.isLanguage : Error → Bool
  | .lex _ => true
  | .parse error => error.isSyntax
  | .run fault => fault.isLanguage
  | .render _ => false

namespace Script

/-- The machines on which texts were run one after the other from the start, whatever the limits
were and however each of them ended. -/
inductive Reached : Machine → Prop where
  | fresh : Reached .fresh
  | run (limits : Limits) (source : String) (before : Reached machine) :
      Reached (run limits source machine).2

/-- Runs a text with a check of the machine before and after each expression and statement. -/
def runChecked (check : Machine → Bool) (limits : Limits) (source : String) (machine : Machine) :
    Except Error Unit × Machine :=
  match parse limits source with
  | .error error => (.error error, machine)
  | .ok program =>
    match Eval.interpretChecked check limits program machine with
    | .ok _ after => (.ok (), after)
    | .error fault after => (.error (.run fault), after)

variable {limits : Limits} {source : String} {machine : Machine}

/-- A check that makes no difference to a program makes none to the text of the program. -/
theorem runChecked_eq {check : Machine → Bool} (same : ∀ program, parse limits source = .ok program →
    Eval.interpretChecked check limits program machine = Eval.interpret limits program machine) :
    runChecked check limits source machine = run limits source machine := by
  unfold runChecked run
  cases parsed : parse limits source with
  | error error => rfl
  | ok program =>
    have agree := same program parsed
    cases outcome : Eval.interpret limits program machine <;> simp only [agree, interpret, outcome]

theorem parse_isLanguage (failed : parse limits source = .error error) : error.isLanguage := by
  unfold parse at failed
  split at failed
  · cases failed
    rfl
  · rename_i tokens lexed
    have ends := (Parse.program_agree (Nat.le_refl limits.depth) (Stream.ofTokens tokens)
      (Grammar.readable_ofTokens lexed)).1
    rw [parseTokens] at failed
    generalize Parse.program limits.depth (Stream.ofTokens tokens) = outcome at ends failed
    cases outcome with
    | ok program after => cases failed
    | error error after =>
      cases failed
      exact ends.1

/-- What holds of a well-formed program that is run on a sound machine. -/
theorem interpret_sound (limits : Limits) {program : List Node} (wellFormed : WellFormedProgram program)
    (sound : machine.Sound) :
    (interpret limits program machine).2.Sound ∧
    (∀ error, (interpret limits program machine).1 = .error error →
      error.isLanguage ∨ error = .run .unfinished) ∧
    Eval.interpretChecked Machine.storesRuntime limits program machine =
      Eval.interpret limits program machine := by
  have passes : ∀ machine, Machine.Sound machine → machine.storesRuntime :=
    fun _ sound => sound.storesRuntime
  obtain ⟨ends, agrees⟩ := Eval.interpret_meets passes limits wellFormed machine sound
  rcases agrees with ⟨_, _, impossible, _⟩ | same
  · cases impossible
  · rw [same] at ends ⊢
    rw [interpret]
    generalize Eval.interpret limits program machine = outcome at ends
    cases outcome with
    | ok _ after => exact ⟨ends.2, by simp, rfl⟩
    | error fault after =>
      refine ⟨ends.2, fun error failed => ?_, rfl⟩
      cases failed
      rcases ends.1 with isLanguage | rfl
      · exact .inl isLanguage
      · exact .inr rfl

/-- What holds of a text that is run on a sound machine. -/
theorem run_sound (limits : Limits) (source : String) (sound : machine.Sound) :
    (run limits source machine).2.Sound ∧
    (∀ error, (run limits source machine).1 = .error error →
      error.isLanguage ∨ error = .run .unfinished) ∧
    runChecked Machine.storesRuntime limits source machine = run limits source machine := by
  have same : runChecked Machine.storesRuntime limits source machine = run limits source machine :=
    runChecked_eq fun program parsed =>
      (interpret_sound limits (Grammar.parse_wellFormed parsed) sound).2.2
  rw [same]
  unfold run
  cases parsed : parse limits source with
  | error error =>
    refine ⟨sound, fun same failed => ?_, rfl⟩
    cases failed
    exact .inl (parse_isLanguage parsed)
  | ok program =>
    obtain ⟨after, expected, -⟩ := interpret_sound limits (Grammar.parse_wellFormed parsed) sound
    exact ⟨after, expected, rfl⟩

theorem Reached.sound (reached : Reached machine) : machine.Sound := by
  induction reached with
  | fresh => exact .fresh
  | run limits source _ ih => exact (run_sound limits source ih).1

/-- The parser of a text never moves on from its last token. -/
theorem parseTokens_safe (limits : Limits) (tokens : List Token) :
    Parse.Safe limits.depth (Stream.terminate tokens) (final (parseTokens limits tokens)) := by
  have safe := Parse.runAll_safe limits.depth tokens [.program]
  have same : (Parse.runAll limits.depth [.program] (Stream.ofTokens tokens)).2 =
      final (parseTokens limits tokens) :=
    Parse.final_map Parse.Answer.nodes (Parse.program limits.depth) (Stream.ofTokens tokens)
  rwa [same] at safe

/-- A text that is run after any others ends well or with an error of the language, unless one of its
loops takes more turns than it may. It stores nothing but values of the language: the run is not
changed by a check of all scopes before and after each expression and each statement. And its parser is at
one of its tokens to the end, so that it has never moved on where there was none. -/
theorem run_never_fails_internally (reached : Reached machine) (limits : Limits) (source : String) :
    (∀ error, (run limits source machine).1 = .error error →
      error.isLanguage ∨ error = .run .unfinished) ∧
    runChecked Machine.storesRuntime limits source machine = run limits source machine ∧
    (run limits source machine).2.storesRuntime ∧
    ∀ tokens, tokenize source = .ok tokens →
      Parse.Safe limits.depth (Stream.terminate tokens) (final (parseTokens limits tokens)) := by
  obtain ⟨sound, outcome, same⟩ := run_sound limits source reached.sound
  exact ⟨outcome, same, sound.storesRuntime, fun tokens _ => parseTokens_safe limits tokens⟩

/-- A text that uses a name too early fails, and the one after it may still declare the name. -/
theorem run_never_fails_internally_afterFailure :
    let first := run Limits.standard "x;" .fresh
    let second := run Limits.standard "var x=null;" first.2
    first.1 = .error (.run (.undefined "x")) ∧ second.1 = .ok () ∧ second.2.storesRuntime := by
  intro first second
  have reached : Reached first.2 := .run _ _ .fresh
  have safe : second.2.storesRuntime := (run_never_fails_internally reached _ _).2.2.1
  exact ⟨rfl, rfl, safe⟩

end Script

end Scriptlet
