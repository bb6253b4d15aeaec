import Scriptlet.Proofs.Console.Lines
import Scriptlet.Proofs.Script.Safety
import Scriptlet.Proofs.Grammar.CallChain
import Scriptlet.Proofs.Node.Decode
import Scriptlet.Proofs.Script.Rendering

/-! What the shell answers to a text. Every stage either goes well or reports one error, except that a
tree which is too deep to be shown stops the shell. -/
namespace Scriptlet

open Scriptlet.Action Node

namespace Console

variable {limits : Limits} {options : Options} {source : String} {program : List Node} {shell : Shell}

theorem OnDisk.write_error (named : '\x00' ∉ path.toList)
    (failed : OnDisk.write path content disk = .error error after) :
    ∃ problem, error = .failed problem path := by
  unfold OnDisk.write OnDisk.onPath at failed
  rw [if_neg (by simpa using named)] at failed
  split at failed
  · cases failed
  · cases failed
    exact ⟨_, rfl⟩

/-- Empties a file and writes the JSON text of a program to it. -/
def jsonFile (path : String) (program : List Node) : OnDisk Unit := do
  OnDisk.write path ByteArray.empty
  match Node.programToJson program with
  | .ok json => OnDisk.write path json.text.toUTF8
  | .error _ => return ()

/-- Whether the file can be emptied, as the first step of a dump. -/
def Empties (path : String) (disk : Disk) : Prop :=
  ∃ after, OnDisk.write path ByteArray.empty disk = .ok () after

/-- Whether the tree of a program is to be shown in full, on the terminal or in a file. -/
def ShowsTree (options : Options) (disk : Disk) : Prop :=
  options.printTree ∨ ∃ path, given options.dumpTree = some path ∧ Empties path disk

/-- The file that is asked for, if one is. -/
def treeFile (options : Options) (program : List Node) : OnDisk Unit :=
  match given options.dumpTree with
  | some path => jsonFile path program
  | none => return ()

def errorLine : Option String → String
  | some message => "Error: " ++ message ++ "\n"
  | none => ""

/-- What is wrong with the run of a program, if it is run and anything is. -/
def runComplaint (limits : Limits) (options : Options) (program : List Node) (machine : Machine) :
    Option String :=
  if options.execute then
    match (Script.interpret limits program machine).1 with
    | .error error => some error.message
    | .ok _ => none
  else none

/-- What is wrong with a text, if anything is: it is no program, its tree cannot be written, or its run
fails. -/
def complaint (limits : Limits) (options : Options) (source : String) (shell : Shell) : Option String :=
  match Script.parse limits source with
  | .error error => some error.message
  | .ok program =>
    match treeFile options program shell.disk with
    | .error error _ => some error.message
    | .ok _ _ => runComplaint limits options program shell.machine

def treeListing (options : Options) (program : List Node) : String :=
  if options.printTree then Node.programOutline program ++ "\n" else ""

/-- Where the tree was written to, if that is asked for. -/
def fileLine (options : Options) : String :=
  match given options.dumpTree with
  | some path => "Wrote AST JSON to " ++ path ++ "\n"
  | none => ""

/-- What comes of a drawing of the program: the path of a picture, or the reason why there is none. -/
def pictured (limits : Limits) (path : String) (format : Option String) (program : List Node)
    (plotter : Plotter) (disk : Disk) : Except String String :=
  match Script.render limits (drawProgram false) program with
  | .error _ => .error (depthComplaint limits.depth program)
  | .ok drawing => (plotter.render drawing path format disk).result

/-- What is said of a drawing, which does not count as a failure of the text. -/
def pictureLine (path : String) : Except String String → String
  | .ok picture => "Wrote AST visualization to " ++ picture ++ "\n"
  | .error reason => "Failed to render AST visualization to " ++ path ++ ": " ++ reason ++ "\n"

/-- What comes of the drawing, if one is asked for. -/
def drawingLine (limits : Limits) (options : Options) (program : List Node) (plotter : Plotter)
    (disk : Disk) : String :=
  match given options.drawTree with
  | some path => pictureLine path (pictured limits path options.drawFormat program plotter disk)
  | none => ""

/-- What a program prints, if it is run. -/
def runLines (limits : Limits) (options : Options) (program : List Node) (machine : Machine) : String :=
  if options.execute then Work.printed (Script.interpret limits program machine).2.output.toList else ""

/-- What the stages show of a text, in their order. -/
def shown (limits : Limits) (options : Options) (source : String) (shell : Shell) : String :=
  Work.tokenListing options source ++
    match Script.parse limits source with
    | .error _ => ""
    | .ok program =>
      treeListing options program ++
        match treeFile options program shell.disk with
        | .error _ _ => ""
        | .ok _ disk =>
          fileLine options ++ drawingLine limits options program shell.plotter disk ++
            runLines limits options program shell.machine

namespace Work

theorem report_isLanguage {error : Error} (language : error.isLanguage) :
    report error = (do say ("Error: " ++ error.message); return false) := by
  cases error with
  | lex error => rfl
  | parse error => cases error <;> first | rfl | cases language
  | run fault => exact report_language language
  | render error => cases language

theorem report_run {error : Error} (language : error.isLanguage) (shell : Shell) :
    report error shell =
      .ok false { shell with stdout := shell.stdout ++ errorLine (some error.message) } := by
  rw [report_isLanguage language]
  rfl

theorem rendered_run (renderer : List Node → Except RenderError α)
    (fits : Node.fitAll limits.depth program) (success : renderer program = .ok result) :
    rendered limits renderer program = return result := by
  rw [rendered, Script.render_of_ok success, if_pos fits]

theorem rendered_stops (renderer : List Node → Except RenderError α)
    (deep : Node.fitAll limits.depth program = false) :
    rendered limits renderer program = throw .depthExceeded := by
  rw [rendered, Script.render, Node.guardDepth, deep]
  rfl

theorem save_run (named : '\x00' ∉ path.toList) (content : ByteArray) (shell : Shell) :
    save path content shell = match OnDisk.write path content shell.disk with
      | .ok _ disk => .ok true { shell with disk }
      | .error error disk =>
        .ok false { shell with disk, stdout := shell.stdout ++ errorLine (some error.message) } := by
  rw [save, bind_run, onDisk]
  cases written : OnDisk.write path content shell.disk with
  | ok _ disk => rfl
  | error error disk =>
    obtain ⟨problem, rfl⟩ := OnDisk.write_error named written
    rfl

theorem dump_run (named : '\x00' ∉ path.toList) (wellFormed : WellFormedProgram program) (shell : Shell)
    (fits : Empties path shell.disk → Node.fitAll limits.depth program) :
    dump limits path program shell = match jsonFile path program shell.disk with
      | .ok _ disk =>
        .ok true { shell with disk, stdout := shell.stdout ++ ("Wrote AST JSON to " ++ path ++ "\n") }
      | .error error disk =>
        .ok false { shell with disk, stdout := shell.stdout ++ errorLine (some error.message) } := by
  obtain ⟨list, encoded⟩ := toJsonAll_ok fun node member => (wellFormed node member).toJson_ok
  have whole : Node.programToJson program =
      .ok (.object [("node_type", .string "Program"), ("statements", .array list)]) := by
    rw [programToJson, encoded]
    rfl
  rw [dump, jsonFile, bind_run, bind_run, save_run named, whole]
  cases emptied : OnDisk.write path ByteArray.empty shell.disk with
  | error error disk => rfl
  | ok _ disk =>
    dsimp only
    rw [if_pos rfl, rendered_run Node.programToJson (fits ⟨disk, emptied⟩) whole, pure_bind, bind_run,
      save_run named]
    cases OnDisk.write path _ disk <;> rfl

/-- To draw changes nothing but the disk and the log. -/
theorem draw_run (limits : Limits) (path : String) (format : Option String) (program : List Node)
    (shell : Shell) :
    ∃ disk noted, draw limits path format program shell =
      .ok (pictured limits path format program shell.plotter shell.disk)
        { shell with disk, stderr := noted } := by
  rw [draw, pictured]
  cases Script.render limits (drawProgram false) program with
  | error error => exact ⟨shell.disk, shell.stderr, rfl⟩
  | ok drawing =>
    obtain ⟨noted, ran⟩ := plot_run drawing path format shell
    exact ⟨_, noted, ran⟩

theorem drawAndExecute_run (wellFormed : WellFormedProgram program) (sound : shell.machine.Sound)
    (finishes : options.execute →
      (Script.interpret limits program shell.machine).1 ≠ .error (.run .unfinished)) :
    ∃ after,
      drawAndExecute limits options program shell =
        .ok (runComplaint limits options program shell.machine).isNone after ∧
      after.stdout = shell.stdout ++ (drawingLine limits options program shell.plotter shell.disk ++
        (runLines limits options program shell.machine ++
          errorLine (runComplaint limits options program shell.machine))) := by
  have executed : ∀ before : Shell, before.machine = shell.machine → ∃ after,
      (if options.execute then execute limits program else return true : Work Bool) before =
        .ok (runComplaint limits options program shell.machine).isNone after ∧
      after.stdout = before.stdout ++ (runLines limits options program shell.machine ++
        errorLine (runComplaint limits options program shell.machine)) := by
    intro before same
    rw [runComplaint, runLines]
    by_cases asked : options.execute
    · rw [if_pos asked, if_pos asked, if_pos asked]
      obtain ⟨noted, ran⟩ := execute_run limits program before
      rw [ran, same]
      have language := (Script.interpret_sound limits wellFormed sound).2.1
      cases outcome : (Script.interpret limits program shell.machine).1 with
      | ok _ => exact ⟨_, rfl, by simp [ranTo, errorLine]⟩
      | error error =>
        rcases language error outcome with isLanguage | rfl
        · refine ⟨_, report_run isLanguage _, ?_⟩
          simp [ranTo, String.append_assoc]
        · exact absurd outcome (finishes asked)
    · rw [if_neg asked, if_neg asked, if_neg asked]
      exact ⟨before, rfl, by simp [errorLine]⟩
  unfold drawAndExecute drawingLine
  cases given options.drawTree with
  | none =>
    obtain ⟨after, ran, output⟩ := executed shell rfl
    exact ⟨after, ran, by simpa using output⟩
  | some path =>
    obtain ⟨disk, noted, drawn⟩ := draw_run limits path options.drawFormat program shell
    dsimp only
    rw [bind_of_ok _ drawn]
    generalize pictured limits path options.drawFormat program shell.plotter shell.disk = outcome
    obtain ⟨after, ran, output⟩ := executed { shell with
      disk
      stdout := shell.stdout ++ pictureLine path outcome
      stderr := noted } rfl
    refine ⟨after, ?_, by rw [output, String.append_assoc]⟩
    cases outcome <;> exact ran

/-- The stages after the tree is shown. -/
def dumpAndRest (limits : Limits) (options : Options) (program : List Node) : Work Bool := do
  let dumped ← match given options.dumpTree with
    | some path => dump limits path program
    | none => pure true
  if !dumped then return false
  drawAndExecute limits options program

theorem processTree_eq (limits : Limits) (options : Options) (program : List Node) :
    processTree limits options program =
      if options.printTree then do
        say (← rendered limits (fun nodes => .ok (programOutline nodes)) program)
        dumpAndRest limits options program
      else dumpAndRest limits options program := by
  rw [processTree, dumpAndRest]
  rfl

/-- The answer to a program, and what its stages have shown from the file of its tree on. -/
def Answers (limits : Limits) (options : Options) (program : List Node) (shell : Shell) (before : String)
    (well : Bool) (after : Shell) : Prop :=
  match treeFile options program shell.disk with
  | .error error _ => well = false ∧ after.stdout = before ++ errorLine (some error.message)
  | .ok _ disk => well = (runComplaint limits options program shell.machine).isNone ∧
    after.stdout = before ++ (fileLine options ++
      (drawingLine limits options program shell.plotter disk ++
        (runLines limits options program shell.machine ++
          errorLine (runComplaint limits options program shell.machine))))

section

variable (wellFormed : WellFormedProgram program) (sound : shell.machine.Sound)
variable (named : ∀ path, given options.dumpTree = some path → '\x00' ∉ path.toList)
variable (finishes : options.execute →
  (Script.interpret limits program shell.machine).1 ≠ .error (.run .unfinished))

include wellFormed sound named finishes

theorem dumpAndRest_run (fits : ∀ path, given options.dumpTree = some path → Empties path shell.disk →
      Node.fitAll limits.depth program) :
    ∃ well after, dumpAndRest limits options program shell = .ok well after ∧
      Answers limits options program shell shell.stdout well after := by
  unfold Answers dumpAndRest treeFile fileLine
  cases asked : given options.dumpTree with
  | none =>
    obtain ⟨after, ran, output⟩ := drawAndExecute_run wellFormed sound finishes
    exact ⟨_, after, ran, rfl, by simpa using output⟩
  | some path =>
    have dumped := dump_run (named path asked) wellFormed shell (fits path asked)
    dsimp only
    cases written : jsonFile path program shell.disk with
    | error error disk =>
      rw [written] at dumped
      refine ⟨false, { shell with disk, stdout := shell.stdout ++ errorLine (some error.message) }, ?_,
        rfl, rfl⟩
      rw [bind_of_ok _ dumped]
      rfl
    | ok _ disk =>
      rw [written] at dumped
      let between : Shell :=
        { shell with disk, stdout := shell.stdout ++ ("Wrote AST JSON to " ++ path ++ "\n") }
      have sound : between.machine.Sound := sound
      obtain ⟨after, ran, output⟩ := drawAndExecute_run wellFormed sound finishes
      refine ⟨_, after, ?_, rfl, by rw [output, String.append_assoc]⟩
      rw [bind_of_ok _ dumped]
      exact ran

theorem processTree_run (fits : ShowsTree options shell.disk → Node.fitAll limits.depth program) :
    ∃ well after, processTree limits options program shell = .ok well after ∧
      Answers limits options program shell (shell.stdout ++ treeListing options program) well after := by
  have dumps : ∀ path, given options.dumpTree = some path → Empties path shell.disk →
      Node.fitAll limits.depth program :=
    fun path asked empties => fits (.inr ⟨path, asked, empties⟩)
  rw [processTree_eq, treeListing]
  by_cases printed : options.printTree
  · rw [if_pos printed, if_pos printed,
      rendered_run (fun nodes => .ok (programOutline nodes)) (fits (.inl printed)) rfl]
    let between : Shell := { shell with stdout := shell.stdout ++ (programOutline program ++ "\n") }
    have sound : between.machine.Sound := sound
    exact dumpAndRest_run wellFormed sound named finishes dumps
  · rw [if_neg printed, if_neg printed, String.append_empty]
    exact dumpAndRest_run wellFormed sound named finishes dumps

end

/-- A tree that is too deep to be shown stops the shell where it is to be shown. -/
theorem processTree_stops (named : ∀ path, given options.dumpTree = some path → '\x00' ∉ path.toList)
    (deep : Node.fitAll limits.depth program = false) (shows : ShowsTree options shell.disk) :
    ∃ after, processTree limits options program shell = .error .depthExceeded after := by
  rw [processTree_eq]
  by_cases printed : options.printTree
  · rw [if_pos printed, rendered_stops _ deep]
    exact ⟨shell, rfl⟩
  · rcases shows with isPrinted | ⟨path, asked, disk, emptied⟩
    · exact absurd isPrinted printed
    · rw [if_neg printed, dumpAndRest, asked]
      dsimp only
      rw [dump, bind_run, bind_run, save_run (named path asked), emptied]
      dsimp only
      rw [if_pos rfl, rendered_stops _ deep]
      exact ⟨{ shell with disk }, rfl⟩

end Work

theorem sound_idle : Work.Idle fun before after => before.Sound → after.Sound where
  refl _ sound := sound
  trans first second sound := second (first sound)
  handed _ sound := sound

/-- Between texts a machine holds nothing but values of the language. -/
theorem Session.sound (session : Session machine) : machine.Sound := by
  induction session with
  | fresh => exact .fresh
  | run limits source _ ih => exact (Script.run_sound limits source ih).1
  | process limits options source _ ih =>
    have kept := sound_idle.process_keeps limits options source fun program parsed machine sound =>
      (Script.interpret_sound limits (Grammar.parse_wellFormed parsed) sound).1
    exact kept _ ih

theorem complaint_eq_none : complaint limits options source shell = none ↔
    ∃ program, Script.parse limits source = .ok program ∧
      (∃ disk, treeFile options program shell.disk = .ok () disk) ∧
      (options.execute → (Script.interpret limits program shell.machine).1 = .ok ()) := by
  unfold complaint
  cases Script.parse limits source with
  | error error => simp
  | ok program =>
    cases written : treeFile options program shell.disk with
    | error error disk => simp [written]
    | ok _ disk =>
      cases outcome : (Script.interpret limits program shell.machine).1 <;>
        cases asked : options.execute <;> simp [runComplaint, written, outcome, asked]

/-- After all stages but where the tree is too deep to be shown, a text is answered: what the stages
show is followed by one line with what is wrong, if anything is. -/
theorem process_answers (session : Session shell.machine)
    (named : ∀ path, given options.dumpTree = some path → '\x00' ∉ path.toList)
    (finishes : ∀ program, Script.parse limits source = .ok program → options.execute →
      (Script.interpret limits program shell.machine).1 ≠ .error (.run .unfinished))
    (fits : ∀ program, Script.parse limits source = .ok program → ShowsTree options shell.disk →
      Node.fitAll limits.depth program) :
    ∃ after, Work.process limits options source shell =
        .ok (complaint limits options source shell).isNone after ∧
      after.stdout = shell.stdout ++ shown limits options source shell ++
        errorLine (complaint limits options source shell) := by
  have begun := Work.process_begins limits options source shell
  unfold complaint shown
  cases parsed : Script.parse limits source with
  | error error =>
    rw [parsed] at begun
    obtain ⟨noted, begun⟩ := begun
    refine ⟨_, begun.trans (Work.report_run (Script.parse_isLanguage parsed) _), ?_⟩
    simp [String.append_assoc]
  | ok program =>
    rw [parsed] at begun
    obtain ⟨noted, begun⟩ := begun
    let listed : Shell :=
      { shell with stdout := shell.stdout ++ Work.tokenListing options source, stderr := noted }
    have sound : listed.machine.Sound := session.sound
    obtain ⟨well, after, ran, answers⟩ := Work.processTree_run (Grammar.parse_wellFormed parsed) sound
      named (finishes program parsed) (fits program parsed)
    dsimp only
    unfold Work.Answers at answers
    cases written : treeFile options program shell.disk with
    | error error disk =>
      rw [written] at answers
      obtain ⟨rfl, output⟩ := answers
      exact ⟨after, begun.trans ran, by simp [output, listed, String.append_assoc]⟩
    | ok _ disk =>
      rw [written] at answers
      obtain ⟨rfl, output⟩ := answers
      exact ⟨after, begun.trans ran, by simp [output, listed, String.append_assoc]⟩

/-- A text is answered, with `true` exactly if it is a program, its tree is written where that is asked
for and its run goes well where one is asked for, and else with `false` and one line on the error. The
exception is a program whose tree is to be shown, on the terminal or in a file that can be written, and
is too deep for that: it stops the shell. The parser does not refuse all such programs, whatever the
depth limit is. -/
theorem answers_unless_too_deep_to_show (limits : Limits) (options : Options) (source : String)
    {shell : Shell} (session : Session shell.machine)
    (named : ∀ path, given options.dumpTree = some path → '\x00' ∉ path.toList)
    (finishes : ∀ program, Script.parse limits source = .ok program → options.execute →
      (Script.interpret limits program shell.machine).1 ≠ .error (.run .unfinished)) :
    ((∀ program, Script.parse limits source = .ok program → ShowsTree options shell.disk →
        Node.fitAll limits.depth program) →
      ∃ after, Work.process limits options source shell =
          .ok (complaint limits options source shell).isNone after ∧
        after.stdout = shell.stdout ++ shown limits options source shell ++
          errorLine (complaint limits options source shell)) ∧
    (complaint limits options source shell = none ↔
      ∃ program, Script.parse limits source = .ok program ∧
        (∃ disk, treeFile options program shell.disk = .ok () disk) ∧
        (options.execute → (Script.interpret limits program shell.machine).1 = .ok ())) ∧
    (∀ program, Script.parse limits source = .ok program → ShowsTree options shell.disk →
      Node.fitAll limits.depth program = false →
      ∃ after, Work.process limits options source shell = .error .depthExceeded after) ∧
    (12 ≤ limits.depth → ∃ source program, Script.parse limits source = .ok program ∧
      Node.fitAll limits.depth program = false) := by
  refine ⟨process_answers session named finishes, complaint_eq_none, ?_, Grammar.exists_too_deep⟩
  intro program parsed shows deep
  have begun := Work.process_begins limits options source shell
  rw [parsed] at begun
  obtain ⟨noted, begun⟩ := begun
  let listed : Shell :=
    { shell with stdout := shell.stdout ++ Work.tokenListing options source, stderr := noted }
  have shows : ShowsTree options listed.disk := shows
  obtain ⟨after, stopped⟩ := Work.processTree_stops named deep shows
  exact ⟨after, begun.trans stopped⟩

/-- A program whose tree is shown and whose run fails: the answer is `false`, after one line on the
error. -/
theorem answers_unless_too_deep_to_show_undefined :
    let shell : Shell := .fresh .standard false
    let options := { Options.default with printTree := true }
    ∃ after, Work.process .standard options "x;" shell = .ok false after ∧
      after.stdout =
        "Program\n    stmt[0]: ExpressionStatement\n      Variable(x)\nError: Undefined variable 'x'\n" := by
  intro shell options
  have parsed : Script.parse .standard "x;" = .ok [.exprStmt 1 (.reference 1 "x")] := rfl
  have session : Session shell.machine := .fresh
  have named : ∀ path, given options.dumpTree = some path → '\x00' ∉ path.toList := by
    intro path asked
    cases asked
  have finishes : ∀ program, Script.parse .standard "x;" = .ok program → options.execute →
      (Script.interpret .standard program shell.machine).1 ≠ .error (.run .unfinished) := by
    intro program same _ unfinished
    cases parsed.symm.trans same
    cases unfinished
  obtain ⟨answered, -⟩ := answers_unless_too_deep_to_show .standard options "x;" session named finishes
  have fits : ∀ program, Script.parse .standard "x;" = .ok program → ShowsTree options shell.disk →
      Node.fitAll Limits.standard.depth program := by
    intro program same _
    cases parsed.symm.trans same
    rfl
  obtain ⟨after, ran, output⟩ := answered fits
  have text : shown .standard options "x;" shell =
      "Program\n    stmt[0]: ExpressionStatement\n      Variable(x)\n" := rfl
  have line : errorLine (complaint .standard options "x;" shell) = "Error: Undefined variable 'x'\n" := rfl
  exact ⟨after, ran, by rw [output, text, line]; rfl⟩
end Console

end Scriptlet
