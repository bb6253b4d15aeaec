import Scriptlet.Console.Command
import Scriptlet.Proofs.Console.Session
import Scriptlet.Proofs.Script.Lines

/-! A program that is taken through the shell as a whole and line by line: but for the lines of trees
and for the log, the shell cannot tell the difference. -/
namespace Scriptlet.Console

open Scriptlet.Action Node

/-- The shell with the lines of all trees and the log left aside. -/
def Shell.unlined (shell : Shell) : Shell :=
  { shell with machine := shell.machine.mapLines noLine, stderr := "" }

namespace Work

/-- Hands lines to the shell one after the other, up to the first one that fails or that returns. The
answer says whether all went well. -/
def feed (limits : Limits) : List String → Work Bool
  | [] => return true
  | line :: rest => do
    let returned := Script.returns limits line (← get).machine
    let well ← process limits .default line
    if well && !returned then feed limits rest else return well

/-- An outcome with the lines of all trees and the log left aside. -/
def unlined : EStateM.Result Crash Shell Bool → EStateM.Result Crash Shell Bool
  | .ok well after => .ok well after.unlined
  | .error crash after => .error crash after.unlined

/-- Lines as they are written. -/
def printed : List String → String
  | [] => ""
  | line :: rest => line ++ "\n" ++ printed rest

theorem printed_append (lines more : List String) :
    printed (lines ++ more) = printed lines ++ printed more := by
  induction lines with
  | nil => simp [printed]
  | cons line lines ih => simp [printed, ih, String.append_assoc]

theorem says_run (lines : Array String) (shell : Shell) :
    (lines.forM say : Work PUnit) shell =
      .ok () { shell with stdout := shell.stdout ++ printed lines.toList } := by
  obtain ⟨lines⟩ := lines
  rw [List.forM_toArray' _ _ rfl]
  induction lines generalizing shell with
  | nil => simp [printed, pure_run]
  | cons line lines ih =>
    have said : say line shell = .ok () { shell with stdout := shell.stdout ++ (line ++ "\n") } := rfl
    rw [List.forM, bind_of_ok _ said, ih]
    simp [printed, String.append_assoc]

/-- The shell after a run that ended with this machine. -/
def ranTo (machine : Machine) (shell : Shell) : Shell :=
  { shell with
    machine := { machine with output := #[], events := #[] }
    stdout := shell.stdout ++ printed machine.output.toList }

theorem flush_run (machine : Machine) (shell : Shell) :
    ∃ noted, flush { shell with machine := machine } =
      .ok () { ranTo machine shell with stderr := noted } := by
  let before : Shell := { shell with machine := { machine with output := #[], events := #[] } }
  obtain ⟨noted, logged⟩ := logs_run (fun _ => "interpreter") Event.text machine.events
    { before with stdout := before.stdout ++ printed machine.output.toList }
  refine ⟨noted, ?_⟩
  have flushed : flush { shell with machine := machine } = (do
      machine.output.forM say
      machine.events.forM fun event => log "interpreter" event.text : Work PUnit) before := rfl
  rw [flushed, bind_of_ok _ (says_run machine.output before)]
  exact logged

/-- What the shell answers to the end of a run. -/
def answer : Except Error Unit → Work Bool
  | .ok _ => return true
  | .error error => report error

theorem execute_run (limits : Limits) (program : List Node) (shell : Shell) :
    ∃ noted, execute limits program shell =
      answer (Script.interpret limits program shell.machine).1
        { ranTo (Script.interpret limits program shell.machine).2 shell with stderr := noted } := by
  obtain ⟨noted, flushed⟩ := flush_run (Script.interpret limits program shell.machine).2 shell
  refine ⟨noted, ?_⟩
  have unfolded : execute limits program shell = (do
      flush
      answer (Script.interpret limits program shell.machine).1 : Work Bool)
        { shell with machine := (Script.interpret limits program shell.machine).2 } := rfl
  rw [unfolded, bind_of_ok _ flushed]

/-- With nothing else asked for, a program is just run. -/
theorem process_run {limits : Limits} {source : String} {program : List Node}
    (parsed : Script.parse limits source = .ok program) (shell : Shell) :
    ∃ noted, process limits .default source shell =
      answer (Script.interpret limits program shell.machine).1
        { ranTo (Script.interpret limits program shell.machine).2 shell with stderr := noted } := by
  have begun := process_begins limits .default source shell
  rw [parsed] at begun
  obtain ⟨first, begun⟩ := begun
  have unlisted : shell.stdout ++ tokenListing .default source = shell.stdout := by
    cases lexed : tokenize source <;> simp [tokenListing, lexed, Options.default]
  rw [unlisted] at begun
  obtain ⟨noted, ran⟩ := execute_run limits program { shell with stderr := first }
  exact ⟨noted, begun.trans ran⟩

/-- The errors of the language are reported with their messages. -/
theorem report_language {fault : Fault} (language : fault.isLanguage) :
    report (.run fault) = (do say ("Error: " ++ (Error.run fault).message); return false) := by
  cases fault <;> first | rfl | cases language

/-- No report shows a line of a tree. -/
theorem report_mapLines {error : Error} (expected : error.isLanguage ∨ error = .run .unfinished) :
    report (error.mapLines noLine) = report error := by
  rcases expected with language | rfl
  · cases error with
    | run fault =>
      have same : (fault.mapLines noLine).isLanguage := by
        rw [Fault.isLanguage_mapLines]
        exact language
      rw [Error.mapLines, report_language same, report_language language, Error.message, Error.message,
        Fault.message_mapLines language]
    | _ => rfl
  · rfl

/-- After a report nothing goes on. -/
theorem report_bind (error : Error) {rest : Bool → Work Bool} (stops : rest false = return false) :
    report error >>= rest = report error := by
  funext shell
  unfold report
  split
  all_goals first
    | rfl
    | exact congrFun stops _

/-- Shells that write the same are the same again after it. -/
theorem unlined_write {one two : Shell} (same : one.unlined = two.unlined) (text : String) :
    { one with stdout := one.stdout ++ text : Shell }.unlined =
      { two with stdout := two.stdout ++ text : Shell }.unlined := by
  simp only [Shell.unlined, Shell.mk.injEq] at same ⊢
  obtain ⟨machine, disk, plotter, stdout, verbose⟩ := same
  exact ⟨machine, disk, plotter, by rw [stdout], verbose⟩

theorem report_unlined (error : Error) {one two : Shell} (same : one.unlined = two.unlined) :
    unlined (report error one) = unlined (report error two) := by
  unfold report
  split
  all_goals first
    | exact congrArg (EStateM.Result.error _) same
    | exact congrArg (EStateM.Result.ok _) (unlined_write same _)

/-- The shell answers in the same way to ends that differ only in lines. -/
theorem answer_unlined {first second : Except Error Unit}
    (ends : first.mapError (Error.mapLines noLine) = second.mapError (Error.mapLines noLine))
    (expected : ∀ error, first = .error error ∨ second = .error error →
      error.isLanguage ∨ error = .run .unfinished)
    {one two : Shell} (same : one.unlined = two.unlined) :
    unlined (answer first one) = unlined (answer second two) := by
  cases first with
  | ok _ =>
    cases second with
    | ok _ => exact congrArg (EStateM.Result.ok true) same
    | error error => cases ends
  | error error =>
    cases second with
    | ok _ => cases ends
    | error other =>
      have alike : error.mapLines noLine = other.mapLines noLine := Except.error.inj ends
      rw [answer, answer, ← report_mapLines (expected error (.inl rfl)),
        ← report_mapLines (expected other (.inr rfl)), alike]
      exact report_unlined _ same

/-- The machine of a shell that has handed on all output and all events. -/
def Cleared (shell : Shell) : Prop :=
  shell.machine = { shell.machine with output := #[], events := #[] }

/-- Going on with a cleared machine comes to the same as going on with the machine that a run ended
with, whose output has been handed on. -/
theorem answer_cleared {limits : Limits} {program : List Node} (wellFormed : WellFormedProgram program)
    {machine : Machine} (sound : machine.Sound) (shell : Shell) (noted : String) :
    let next : Shell := { ranTo machine shell with stderr := noted }
    unlined (answer (Script.interpret limits program next.machine).1
        (ranTo (Script.interpret limits program next.machine).2 next)) =
      unlined (answer (Script.interpret limits program machine).1
        (ranTo (Script.interpret limits program machine).2 shell)) := by
  intro next
  have same := Script.interpret_cleared limits program machine
  have nextSound : next.machine.Sound := sound
  have here := (Script.interpret_sound limits wellFormed nextSound).2.1
  have there := (Script.interpret_sound limits wellFormed sound).2.1
  change Script.unlined _ = Script.recastEnd _ (Script.interpret limits program next.machine) at same
  generalize Script.interpret limits program next.machine = cleared at same here
  generalize Script.interpret limits program machine = whole at same there
  obtain ⟨first, after⟩ := cleared
  obtain ⟨second, last⟩ := whole
  obtain ⟨ends, machines⟩ := Prod.mk.inj same
  simp only [Machine.mapLines, Recast.machine, Machine.mk.injEq] at machines
  obtain ⟨forest, current, output, -⟩ := machines
  refine answer_unlined ends.symm (fun error failed => failed.elim (here error) (there error)) ?_
  simp only [Shell.unlined, ranTo, Machine.mapLines, next, forest, current, output, Array.toList_append,
    printed_append, String.append_assoc]

/-- Lines are handed over one by one as their programs are run in one go. -/
theorem feed_unlined {limits : Limits} {lines : List String} {programs : List (List Node)}
    (parsed : List.Forall₂ (fun line program => Script.parse limits line = .ok program) lines programs)
    {shell : Shell} (sound : shell.machine.Sound) (cleared : Cleared shell) :
    unlined (feed limits lines shell) =
      unlined (answer (Script.interpret limits programs.flatten shell.machine).1
        (ranTo (Script.interpret limits programs.flatten shell.machine).2 shell)) := by
  induction parsed generalizing shell with
  | nil =>
    have ran : ranTo shell.machine shell = shell := by
      obtain ⟨machine, disk, plotter, stdout, stderr, verbose⟩ := shell
      obtain ⟨forest, current, output, events⟩ := machine
      simp only [Cleared, Machine.mk.injEq] at cleared
      obtain ⟨-, -, rfl, rfl⟩ := cleared
      simp [ranTo, printed]
    have nothing : Script.interpret limits [] shell.machine = (.ok (), shell.machine) := rfl
    rw [List.flatten_nil, nothing, ran]
    rfl
  | @cons line program lines programs success rest ih =>
    obtain ⟨noted, processed⟩ := process_run success shell
    have kept := (Script.interpret_sound limits (Grammar.parse_wellFormed success) sound).1
    have returned : Script.returns limits line shell.machine =
        Eval.returns limits program shell.machine := by
      rw [Script.returns, success]
    have fed : feed limits (line :: lines) shell = (do
        let well ← process limits .default line
        if well && !Script.returns limits line shell.machine then feed limits lines
        else return well : Work Bool) shell := rfl
    rw [fed, returned, bind_run, processed, ← bind_run, List.flatten_cons, Script.interpret_append]
    generalize Script.interpret limits program shell.machine = ended at kept
    generalize Eval.returns limits program shell.machine = returns
    obtain ⟨result, after⟩ := ended
    cases result with
    | error error =>
      have stopped : answer (.error error) = report error := rfl
      rw [stopped, report_bind]
      · exact report_unlined error rfl
      · rfl
    | ok _ =>
      cases returns with
      | true => rfl
      | false =>
        have further := @ih { ranTo after shell with stderr := noted } kept rfl
        exact further.trans (answer_cleared (Script.flatten_wellFormed rest) kept shell noted)

end Work

open Work

/-- A file agrees with its lines typed one by one. If each line is a program by itself, the lines are
read as their programs one after the other, each node moved down to its line. And wherever they are
run, or whenever a shell with a fresh machine takes them in one go, what is printed, the error and all
bindings are the same as line by line up to the first line that fails or returns, but for the lines
that functions were declared on. -/
theorem process_joined (limits : Limits) {lines : List String} {programs : List (List Node)}
    (unbroken : ∀ line ∈ lines, '\n' ∉ line.toList)
    (parsed : List.Forall₂ (fun line program => Script.parse limits line = .ok program) lines programs) :
    Script.parse limits ("\n".intercalate lines) = .ok (stackedNodes 0 programs) ∧
    (∀ machine, Script.unlined (Script.run limits ("\n".intercalate lines) machine) =
      Script.unlined (Script.runEach limits lines machine)) ∧
    ∀ shell : Shell, shell.machine = .fresh →
      unlined (process limits .default ("\n".intercalate lines) shell) =
        unlined (feed limits lines shell) := by
  have joined := parse_joined unbroken parsed
  refine ⟨joined, Script.run_joined unbroken parsed, fun shell fresh => ?_⟩
  have sound : shell.machine.Sound := fresh ▸ .fresh
  have cleared : Cleared shell := by rw [Cleared, fresh]; rfl
  have same := Script.interpret_unlined limits (Script.stackedNodes_noLine 0 programs) shell.machine
  obtain ⟨ends, machines⟩ := Prod.mk.inj same
  have whole := (Script.interpret_sound limits (Grammar.parse_wellFormed joined) sound).2.1
  have parts := (Script.interpret_sound limits (Script.flatten_wellFormed parsed) sound).2.1
  obtain ⟨noted, processed⟩ := process_run joined shell
  rw [processed, feed_unlined parsed sound cleared]
  refine answer_unlined ends (fun error failed => failed.elim (whole error) (parts error)) ?_
  simp only [Machine.mapLines, Machine.mk.injEq] at machines
  obtain ⟨forest, current, output, -⟩ := machines
  simp only [Shell.unlined, ranTo, Machine.mapLines, forest, current, output]

/-- The second line could take an `else`, and the third one fails. -/
theorem process_joined_threeLines :
    let limits : Limits := ⟨50, 9⟩
    let lines := ["fn f(){} // one", "if (f) print f;", "x;"]
    let program : List Node := [.fnDecl 1 "f" [] (.block 1 []),
      .ifStmt 2 (.reference 2 "f") (.printStmt 2 (.reference 2 "f")) .absent,
      .exprStmt 3 (.reference 3 "x")]
    Script.parse limits ("\n".intercalate lines) = .ok program ∧
    Script.unlined (Script.run limits ("\n".intercalate lines) .fresh) =
      Script.unlined (Script.runEach limits lines .fresh) ∧
    ∀ disk verbose,
      unlined (process limits .default ("\n".intercalate lines) (.fresh disk verbose)) =
        unlined (feed limits lines (.fresh disk verbose)) := by
  intro limits lines program
  have unbroken : ∀ line ∈ lines, '\n' ∉ line.toList := by decide
  have parsed : List.Forall₂ (fun line program => Script.parse limits line = .ok program) lines
      [[.fnDecl 1 "f" [] (.block 1 [])],
       [.ifStmt 1 (.reference 1 "f") (.printStmt 1 (.reference 1 "f")) .absent],
       [.exprStmt 1 (.reference 1 "x")]] :=
    .cons rfl (.cons rfl (.cons rfl .nil))
  obtain ⟨joined, ran, fed⟩ := process_joined limits unbroken parsed
  exact ⟨joined, ran .fresh, fun disk verbose => fed (.fresh disk verbose) rfl⟩

end Scriptlet.Console
