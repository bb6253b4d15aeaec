import Scriptlet.Proofs.Machine.Recast
import Scriptlet.Proofs.Parsing.Joining
import Scriptlet.Proofs.Script.Safety

/-! A text is run like its lines, one after the other up to the first that fails or returns. -/
namespace Scriptlet

open Scriptlet.Action

namespace Eval

/-- Runs the statements of a program, and says how they end together. -/
def conclude (limits : Limits) : List Node → Eval Flow :=
  executeAll fun statement => catchDepth (execute limits statement)

theorem interpret_append (limits : Limits) (program rest : List Node) :
    interpret limits (program ++ rest) = (do
      match ← conclude limits program with
      | .returned value => note (.discarded value)
      | .normal => interpret limits rest) := by
  induction program with
  | nil => rfl
  | cons statement program ih =>
    funext machine
    rw [List.cons_append, interpret, conclude, executeAll, bind_run, bind_run, bind_run]
    cases catchDepth (execute limits statement) machine with
    | error fault after => rfl
    | ok flow after =>
      cases flow with
      | returned value => rfl
      | normal =>
        dsimp only
        rw [ih]
        rfl

/-- Whether some statement of a program returns when it is run on a machine. -/
def returns (limits : Limits) (program : List Node) (machine : Machine) : Bool :=
  match conclude limits program machine with
  | .ok (.returned _) _ => true
  | _ => false

end Eval

def Error.mapLines (change : Int → Int) : Error → Error
  | .run fault => .run (fault.mapLines change)
  | error => error

/-- The line that takes the place of every other where lines do not matter. -/
def noLine (_ : Int) : Int :=
  0

namespace Script

/-- Whether a text returns when it is run on a machine. -/
def returns (limits : Limits) (source : String) (machine : Machine) : Bool :=
  match parse limits source with
  | .error _ => false
  | .ok program => Eval.returns limits program machine

/-- Runs texts one after the other, up to the first one that fails or that returns. -/
def runEach (limits : Limits) : List String → Machine → Except Error Unit × Machine
  | [], machine => (.ok (), machine)
  | source :: rest, machine =>
    match run limits source machine with
    | (.error error, after) => (.error error, after)
    | (.ok _, after) =>
      if returns limits source machine then (.ok (), after) else runEach limits rest after

/-- How a run ends, the lines of all trees left aside. -/
def unlined (ended : Except Error Unit × Machine) : Except Error Unit × Machine :=
  (ended.1.mapError (Error.mapLines noLine), ended.2.mapLines noLine)

variable {limits : Limits} {lines : List String} {programs : List (List Node)}

theorem interpret_append (limits : Limits) (program rest : List Node) (machine : Machine) :
    interpret limits (program ++ rest) machine =
      match interpret limits program machine with
      | (.error error, after) => (.error error, after)
      | (.ok _, after) =>
        if Eval.returns limits program machine then (.ok (), after)
        else interpret limits rest after := by
  have alone := Eval.interpret_append limits program []
  rw [List.append_nil] at alone
  unfold interpret Eval.returns
  rw [Eval.interpret_append, alone, bind_run, bind_run]
  cases Eval.conclude limits program machine with
  | error fault after => rfl
  | ok flow after => cases flow <;> rfl

/-- Lines that are programs are run like the one program that they make up together. -/
theorem runEach_eq
    (parsed : List.Forall₂ (fun line program => parse limits line = .ok program) lines programs)
    (machine : Machine) :
    runEach limits lines machine = interpret limits programs.flatten machine := by
  induction parsed generalizing machine with
  | nil => rfl
  | cons success _ ih =>
    rw [List.flatten_cons, interpret_append, runEach, run, returns, success]
    dsimp only
    split
    · rfl
    · split
      · rfl
      · exact ih _

theorem flatten_wellFormed
    (parsed : List.Forall₂ (fun line program => parse limits line = .ok program) lines programs) :
    Node.WellFormedProgram programs.flatten := by
  induction parsed with
  | nil => exact fun node member => absurd member List.not_mem_nil
  | cons success _ ih =>
    intro node member
    rcases List.mem_append.mp member with here | below
    · exact Grammar.parse_wellFormed success node here
    · exact ih node below

/-- Moving lines down does not show where lines are left aside. -/
theorem stackedNodes_noLine (above : Nat) (programs : List (List Node)) :
    (stackedNodes above programs).map (·.mapLines noLine) =
      programs.flatten.map (·.mapLines noLine) := by
  induction programs generalizing above with
  | nil => rfl
  | cons program programs ih =>
    rw [stackedNodes, stacked, List.map_append, ih, List.flatten_cons, List.map_append, List.map_map]
    congr 1
    refine List.map_congr_left fun node _ => ?_
    exact Node.mapLines_mapLines noLine _ node

/-- The end of a run on another form of a machine. -/
def recastEnd (recast : Recast) (ended : Except Error Unit × Machine) : Except Error Unit × Machine :=
  (ended.1.mapError (Error.mapLines recast.change), recast.machine ended.2)

theorem interpret_recast (recast : Recast) (limits : Limits) (program : List Node) (machine : Machine) :
    interpret limits (program.map (·.mapLines recast.change)) (recast.machine machine) =
      recastEnd recast (interpret limits program machine) := by
  unfold interpret
  rw [recast.interpret_carries limits program machine]
  cases Eval.interpret limits program machine <;> rfl

theorem recastEnd_unlined (ended : Except Error Unit × Machine) :
    recastEnd ⟨noLine, #[], #[]⟩ ended = unlined ended := by
  simp [recastEnd, unlined, Recast.machine, Machine.mapLines]

/-- Programs that differ only in lines are run in the same way. -/
theorem interpret_unlined (limits : Limits) {program other : List Node}
    (same : program.map (·.mapLines noLine) = other.map (·.mapLines noLine)) (machine : Machine) :
    unlined (interpret limits program machine) = unlined (interpret limits other machine) := by
  rw [← recastEnd_unlined, ← recastEnd_unlined, ← interpret_recast, ← interpret_recast, same]

/-- What was printed and noted before a program comes in front of what the program adds. -/
theorem interpret_cleared (limits : Limits) (program : List Node) (machine : Machine) :
    unlined (interpret limits program machine) =
      recastEnd ⟨noLine, machine.output, machine.events.map (·.mapLines noLine)⟩
        (interpret limits program { machine with output := #[], events := #[] }) := by
  rw [← recastEnd_unlined, ← interpret_recast, ← interpret_recast]
  simp [Recast.machine]

/-- A text that is joined from lines which are programs by themselves is run like its lines, up to the
first that fails or returns: the output, the error and all bindings are the same, but for the lines. -/
theorem run_joined (unbroken : ∀ line ∈ lines, '\n' ∉ line.toList)
    (parsed : List.Forall₂ (fun line program => parse limits line = .ok program) lines programs)
    (machine : Machine) :
    unlined (run limits ("\n".intercalate lines) machine) =
      unlined (runEach limits lines machine) := by
  rw [run, parse_joined unbroken parsed, runEach_eq parsed]
  exact interpret_unlined limits (stackedNodes_noLine 0 programs) machine

end Script

end Scriptlet
