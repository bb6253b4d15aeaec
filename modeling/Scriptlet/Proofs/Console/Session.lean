import Scriptlet.Console.Process
import Scriptlet.Proofs.Machine.Preservation

/-! One machine that is handed text after text. Whatever a text does, the machine comes back to the
scope it was in; and a text that is no program does not touch the machine at all. -/
namespace Scriptlet

open Scriptlet.Action

/-- The current scope is the same before and after. -/
def SameScope (before after : Machine) : Prop :=
  after.current = before.current

theorem onScopes_current (operation : Store α) : Keeps SameScope (Eval.onScopes operation) := by
  intro machine
  rw [Eval.onScopes_final]
  rfl

theorem sameScope_kept : Eval.Kept SameScope where
  refl _ := rfl
  trans first second := second.trans first
  newScope _ := onScopes_current _
  assign _ _ _ := onScopes_current _
  define _ _ _ := onScopes_current _
  print _ _ := rfl
  note _ _ := rfl
  inScope id action _ := by
    intro machine
    unfold Eval.inScope
    dsimp only
    split <;> rfl

theorem Script.interpret_current (limits : Limits) (program : List Node) (machine : Machine) :
    (Script.interpret limits program machine).2.current = machine.current := by
  have kept := Eval.interpret_keeps sameScope_kept limits program machine
  unfold Script.interpret
  cases outcome : Eval.interpret limits program machine with
  | ok value after =>
    rw [outcome] at kept
    exact kept
  | error fault after =>
    rw [outcome] at kept
    exact kept

theorem Script.run_unparsed (failed : Script.parse limits source = .error error) (machine : Machine) :
    Script.run limits source machine = (.error error, machine) := by
  rw [Script.run, failed]

theorem Script.run_current (limits : Limits) (source : String) (machine : Machine) :
    (Script.run limits source machine).2.current = machine.current := by
  unfold Script.run
  cases Script.parse limits source with
  | error error => rfl
  | ok program => exact Script.interpret_current limits program machine

namespace Console.Work

/-- The machines of the shell before and after are related. -/
def OnMachine (relation : Machine → Machine → Prop) (before after : Shell) : Prop :=
  relation before.machine after.machine

/-- A relation that the shell keeps as long as it runs no program. -/
structure Idle (relation : Machine → Machine → Prop) : Prop where
  refl : ∀ machine, relation machine machine
  trans : ∀ {first second third}, relation first second → relation second third → relation first third
  /-- What was printed and noted is handed on. -/
  handed : ∀ machine, relation machine { machine with output := #[], events := #[] }

theorem sameScope_idle : Idle SameScope where
  refl := sameScope_kept.refl
  trans := sameScope_kept.trans
  handed _ := rfl

variable {relation : Machine → Machine → Prop}

theorem Idle.bind (idle : Idle relation) {first : Work α} {rest : α → Work β} (before :
    Keeps (OnMachine relation) first)
    (after : ∀ value, Keeps (OnMachine relation) (rest value)) :
    Keeps (OnMachine relation) (first >>= rest) :=
  Keeps.bind idle.trans before after

theorem Idle.pure (idle : Idle relation) (value : α) :
    Keeps (OnMachine relation) (pure value : Work α) :=
  fun shell => idle.refl shell.machine

theorem Idle.throw (idle : Idle relation) (crash : Crash) :
    Keeps (OnMachine relation) (throw crash : Work α) :=
  fun shell => idle.refl shell.machine

/-- Going on from a changed state with a related machine. -/
theorem Idle.update (idle : Idle relation) (change : Shell → Shell) {rest : Shell → Work α}
    (related : ∀ shell, OnMachine relation shell (change shell))
    (after : ∀ shell, Keeps (OnMachine relation) (rest shell)) :
    Keeps (OnMachine relation) (do let shell ← get; set (change shell); rest shell) :=
  fun shell => idle.trans (related shell) (after shell (change shell))

theorem Idle.say_keeps (idle : Idle relation) (line : String) :
    Keeps (OnMachine relation) (say line) :=
  fun shell => idle.refl shell.machine

theorem log_run (origin message : String) (shell : Shell) :
    ∃ noted, log origin message shell = .ok () { shell with stderr := noted } := by
  obtain ⟨machine, disk, plotter, stdout, stderr, verbose⟩ := shell
  cases verbose
  · exact ⟨stderr, rfl⟩
  · exact ⟨_, rfl⟩

theorem logs_run (origin message : α → String) (items : Array α) (shell : Shell) :
    ∃ noted, (items.forM fun item => log (origin item) (message item) : Work PUnit) shell =
      .ok () { shell with stderr := noted } := by
  obtain ⟨items⟩ := items
  rw [List.forM_toArray' _ _ rfl]
  induction items generalizing shell with
  | nil => exact ⟨shell.stderr, rfl⟩
  | cons item items ih =>
    obtain ⟨noted, logged⟩ := log_run (origin item) (message item) shell
    obtain ⟨more, rest⟩ := ih { shell with stderr := noted }
    refine ⟨more, ?_⟩
    rw [List.forM, bind_of_ok _ logged, rest]

/-- Apart from what comes of the drawing, the shell only keeps the log. -/
theorem plot_run (drawing : Drawing) (path : String) (format : Option String) (shell : Shell) :
    let picture := shell.plotter.render drawing path format shell.disk
    ∃ noted, plot drawing path format shell =
      .ok picture.result { shell with disk := picture.disk, stderr := noted } := by
  intro picture
  obtain ⟨noted, logged⟩ := logs_run Prod.fst Prod.snd picture.log { shell with disk := picture.disk }
  refine ⟨noted, ?_⟩
  have unfolded : plot drawing path format shell = (do
      picture.log.forM fun line => log line.1 line.2
      return picture.result : Work (Except String String)) { shell with disk := picture.disk } := rfl
  rw [unfolded, bind_of_ok _ logged]
  rfl

theorem Idle.log_keeps (idle : Idle relation) (origin message : String) :
    Keeps (OnMachine relation) (log origin message) := by
  intro shell
  obtain ⟨noted, ran⟩ := log_run origin message shell
  rw [ran]
  exact idle.refl shell.machine

theorem Idle.onDisk_keeps (idle : Idle relation) (action : OnDisk α) :
    Keeps (OnMachine relation) (onDisk action) := by
  intro shell
  unfold onDisk
  split <;> exact idle.refl shell.machine

theorem Idle.diskMessage_keeps (idle : Idle relation) (error : DiskError) :
    Keeps (OnMachine relation) (diskMessage error) := by
  cases error <;> first | exact idle.pure _ | exact idle.throw _

theorem Idle.forM_keeps (idle : Idle relation) {action : α → Work PUnit} (items : Array α)
    (each : ∀ item, Keeps (OnMachine relation) (action item)) :
    Keeps (OnMachine relation) (items.forM action) := by
  obtain ⟨items⟩ := items
  rw [List.forM_toArray' _ _ rfl]
  induction items with
  | nil => exact idle.pure _
  | cons item items ih => exact idle.bind (each item) fun _ => ih

theorem Idle.report_keeps (idle : Idle relation) (error : Error) :
    Keeps (OnMachine relation) (report error) := by
  unfold report
  split
  all_goals first
    | exact idle.throw _
    | exact idle.bind (idle.say_keeps _) fun _ => idle.pure _

theorem Idle.rendered_keeps (idle : Idle relation) (limits : Limits)
    (renderer : List Node → Except RenderError α) (program : List Node) :
    Keeps (OnMachine relation) (rendered limits renderer program) := by
  unfold rendered
  split
  · exact idle.pure _
  · exact idle.throw _
  · exact idle.throw _

theorem Idle.listTokens_keeps (idle : Idle relation) (index : Nat) (tokens : List Token) :
    Keeps (OnMachine relation) (listTokens index tokens) := by
  induction tokens generalizing index with
  | nil => exact idle.pure _
  | cons token rest ih => exact idle.bind (idle.say_keeps _) fun _ => ih (index + 1)

theorem Idle.save_keeps (idle : Idle relation) (path : String) (content : ByteArray) :
    Keeps (OnMachine relation) (save path content) := by
  refine idle.bind (idle.onDisk_keeps _) fun written => ?_
  cases written with
  | ok _ => exact idle.pure _
  | error error =>
    exact idle.bind (idle.diskMessage_keeps error) fun _ => idle.bind (idle.say_keeps _) fun _ => idle.pure _

theorem Idle.dump_keeps (idle : Idle relation) (limits : Limits) (path : String) (program : List Node) :
    Keeps (OnMachine relation) (dump limits path program) := by
  refine idle.bind (idle.save_keeps _ _) fun emptied => ?_
  split
  · refine idle.bind (idle.rendered_keeps _ _ _) fun json => idle.bind (idle.save_keeps _ _) fun written => ?_
    split
    · exact idle.bind (idle.say_keeps _) fun _ => idle.pure _
    · exact idle.pure _
  · exact idle.pure _

theorem Idle.draw_keeps (idle : Idle relation) (limits : Limits) (path : String)
    (format : Option String) (program : List Node) :
    Keeps (OnMachine relation) (draw limits path format program) := by
  unfold draw
  split
  · exact idle.pure _
  · rename_i drawing _
    intro shell
    obtain ⟨noted, ran⟩ := plot_run drawing path format shell
    rw [ran]
    exact idle.refl shell.machine

theorem Idle.flush_keeps (idle : Idle relation) : Keeps (OnMachine relation) flush := by
  refine idle.update _ (fun shell => idle.handed shell.machine) fun shell => ?_
  refine idle.bind (idle.forM_keeps _ idle.say_keeps) fun _ => ?_
  exact idle.forM_keeps _ fun event => idle.log_keeps _ _

theorem Idle.execute_keeps (idle : Idle relation) (limits : Limits) (program : List Node)
    (ran : ∀ machine, relation machine (Script.interpret limits program machine).2) :
    Keeps (OnMachine relation) (execute limits program) := by
  let ended (shell : Shell) : Shell :=
    { shell with machine := (Script.interpret limits program shell.machine).2 }
  refine idle.update ended (fun shell => ?_) fun shell => idle.bind idle.flush_keeps fun _ => ?_
  · exact ran shell.machine
  · split
    · exact idle.pure _
    · exact idle.report_keeps _

/-- The stages after the dump of the tree. -/
def drawAndExecute (limits : Limits) (options : Options) (program : List Node) : Work Bool := do
  match given options.drawTree with
  | some path =>
    match ← draw limits path options.drawFormat program with
    | .ok picture => say ("Wrote AST visualization to " ++ picture)
    | .error reason => say ("Failed to render AST visualization to " ++ path ++ ": " ++ reason)
  | none => pure ()
  if options.execute then execute limits program else return true

theorem Idle.processTree_keeps (idle : Idle relation) (limits : Limits) (options : Options)
    (program : List Node) (ran : ∀ machine, relation machine (Script.interpret limits program machine).2) :
    Keeps (OnMachine relation) (processTree limits options program) := by
  have executed : Keeps (OnMachine relation)
      (if options.execute then execute limits program else return true : Work Bool) := by
    split
    · exact idle.execute_keeps limits program ran
    · exact idle.pure _
  have drawn : Keeps (OnMachine relation) (drawAndExecute limits options program) := by
    rw [drawAndExecute]
    split
    · refine idle.bind (idle.draw_keeps _ _ _ _) fun drawn => ?_
      cases drawn <;> exact idle.bind (idle.say_keeps _) fun _ => executed
    · exact executed
  have settled : ∀ written : Bool, Keeps (OnMachine relation)
      (if !written then return false else drawAndExecute limits options program : Work Bool) := by
    intro written
    cases written with
    | false => exact idle.pure _
    | true => exact drawn
  rw [processTree]
  dsimp only
  split
  · refine idle.bind (idle.rendered_keeps _ _ _) fun _ => idle.bind (idle.say_keeps _) fun _ => ?_
    split
    · exact idle.bind (idle.dump_keeps _ _ _) settled
    · exact idle.bind (idle.pure _) settled
  · split
    · exact idle.bind (idle.dump_keeps _ _ _) settled
    · exact idle.bind (idle.pure _) settled

/-- The stages after the listing of the tokens. -/
def processTokens (limits : Limits) (options : Options) (tokens : List Token) : Work Bool := do
  let parsed := Script.parseTokens limits tokens
  let stream := match parsed with
    | .ok _ stream => stream
    | .error _ stream => stream
  stream.declared.forM fun function =>
    log "parser" ("parsed function " ++ function.1 ++ "/" ++ toString function.2)
  match parsed with
  | .error error _ => report (.parse error)
  | .ok program _ =>
    log "parser" ("parsed " ++ toString program.length ++ " top-level statements")
    log "main" ("parsed " ++ toString program.length ++ " statement(s)")
    processTree limits options program

theorem process_eq (limits : Limits) (options : Options) (source : String) :
    process limits options source = match tokenize source with
      | .error error => report (.lex error)
      | .ok tokens =>
        if options.printTokens then do
          say ("Tokens (" ++ toString tokens.length ++ "):")
          listTokens 0 tokens
          processTokens limits options tokens
        else processTokens limits options tokens := rfl

theorem Idle.processTokens_keeps (idle : Idle relation) (limits : Limits) (options : Options)
    (tokens : List Token) (ran : ∀ program stream, Script.parseTokens limits tokens = .ok program stream →
      ∀ machine, relation machine (Script.interpret limits program machine).2) :
    Keeps (OnMachine relation) (processTokens limits options tokens) := by
  refine idle.bind (idle.forM_keeps _ fun function => idle.log_keeps _ _) fun _ => ?_
  split
  · exact idle.report_keeps _
  · rename_i program stream parsed
    refine idle.bind (idle.log_keeps _ _) fun _ => idle.bind (idle.log_keeps _ _) fun _ => ?_
    exact idle.processTree_keeps _ _ _ (ran _ _ parsed)

/-- Whatever the stages are, the machine changes only by running the program. -/
theorem Idle.process_keeps (idle : Idle relation) (limits : Limits) (options : Options) (source : String)
    (ran : ∀ program, Script.parse limits source = .ok program →
      ∀ machine, relation machine (Script.interpret limits program machine).2) :
    Keeps (OnMachine relation) (process limits options source) := by
  rw [process_eq]
  split
  · exact idle.report_keeps _
  · rename_i tokens lexed
    have further : ∀ program stream, Script.parseTokens limits tokens = .ok program stream →
        ∀ machine, relation machine (Script.interpret limits program machine).2 := by
      intro program stream success
      exact ran program (by rw [Script.parse, lexed]; dsimp only; rw [success])
    split
    · refine idle.bind (idle.say_keeps _) fun _ => idle.bind (idle.listTokens_keeps _ _) fun _ => ?_
      exact idle.processTokens_keeps _ _ _ further
    · exact idle.processTokens_keeps _ _ _ further

/-- The lines that list tokens, with their numbers from `index` on. -/
def tokenLines : Nat → List Token → String
  | _, [] => ""
  | index, token :: rest =>
    "  " ++ column index ++ ": " ++ token.listing ++ "\n" ++ tokenLines (index + 1) rest

/-- What the listing of the tokens shows of a text, if it is asked for and there are any. -/
def tokenListing (options : Options) (source : String) : String :=
  match tokenize source with
  | .error _ => ""
  | .ok tokens =>
    if options.printTokens then
      "Tokens (" ++ toString tokens.length ++ "):\n" ++ tokenLines 0 tokens
    else ""

theorem listTokens_run (index : Nat) (tokens : List Token) (shell : Shell) :
    listTokens index tokens shell =
      .ok () { shell with stdout := shell.stdout ++ tokenLines index tokens } := by
  induction tokens generalizing index shell with
  | nil => simp [listTokens, tokenLines, pure_run]
  | cons token rest ih =>
    have said : say ("  " ++ column index ++ ": " ++ token.listing) shell =
        .ok () { shell with stdout := shell.stdout ++
          ("  " ++ column index ++ ": " ++ token.listing ++ "\n") } := rfl
    rw [listTokens, bind_of_ok _ said, ih]
    simp [tokenLines, String.append_assoc]

/-- A report is one line, or none where the shell stops instead. -/
theorem report_final (error : Error) (shell : Shell) :
    ∃ line ∈ ["", "Error: " ++ error.message ++ "\n"],
      final (report error shell) = { shell with stdout := shell.stdout ++ line } := by
  unfold report
  split
  all_goals first
    | exact ⟨_, List.mem_cons_of_mem _ (List.mem_singleton.mpr rfl), rfl⟩
    | exact ⟨"", List.mem_cons_self, by simp [throw_run, final]⟩

/-- The stages after the tokens: the log is kept, and the program is taken on or refused. -/
theorem processTokens_run (limits : Limits) (options : Options) (tokens : List Token) (shell : Shell) :
    match Script.parseTokens limits tokens with
    | .error error _ => ∃ noted, processTokens limits options tokens shell =
        report (.parse error) { shell with stderr := noted }
    | .ok program _ => ∃ noted, processTokens limits options tokens shell =
        processTree limits options program { shell with stderr := noted } := by
  have logged (stream : Stream) := logs_run (fun _ => "parser") (fun function : String × Nat =>
    "parsed function " ++ function.1 ++ "/" ++ toString function.2) stream.declared shell
  cases parsed : Script.parseTokens limits tokens with
  | error error stream =>
    obtain ⟨noted, logged⟩ := logged stream
    refine ⟨noted, ?_⟩
    rw [processTokens, parsed]
    dsimp only
    rw [bind_of_ok _ logged]
  | ok program stream =>
    obtain ⟨first, logged⟩ := logged stream
    obtain ⟨second, counted⟩ := log_run "parser"
      ("parsed " ++ toString program.length ++ " top-level statements") { shell with stderr := first }
    obtain ⟨third, recounted⟩ := log_run "main"
      ("parsed " ++ toString program.length ++ " statement(s)") { shell with stderr := second }
    refine ⟨third, ?_⟩
    rw [processTokens, parsed]
    dsimp only
    rw [bind_of_ok _ logged, bind_of_ok _ counted, bind_of_ok _ recounted]

/-- Up to the tree, a text has its tokens listed and the log kept. -/
theorem process_begins (limits : Limits) (options : Options) (source : String) (shell : Shell) :
    match Script.parse limits source with
    | .error error => ∃ noted, process limits options source shell = report error
        { shell with stdout := shell.stdout ++ tokenListing options source, stderr := noted }
    | .ok program => ∃ noted, process limits options source shell = processTree limits options program
        { shell with stdout := shell.stdout ++ tokenListing options source, stderr := noted } := by
  rw [process_eq, Script.parse, tokenListing]
  cases tokenize source with
  | error error => exact ⟨shell.stderr, by simp⟩
  | ok tokens =>
    dsimp only
    let listing : String :=
      if options.printTokens then "Tokens (" ++ toString tokens.length ++ "):\n" ++ tokenLines 0 tokens
      else ""
    let listed : Shell := { shell with stdout := shell.stdout ++ listing }
    have lists : (if options.printTokens then do
          say ("Tokens (" ++ toString tokens.length ++ "):")
          listTokens 0 tokens
          processTokens limits options tokens
        else processTokens limits options tokens) shell = processTokens limits options tokens listed := by
      by_cases asked : options.printTokens
      · have said : say ("Tokens (" ++ toString tokens.length ++ "):") shell = .ok () { shell with
            stdout := shell.stdout ++ ("Tokens (" ++ toString tokens.length ++ "):" ++ "\n") } := rfl
        rw [if_pos asked, bind_of_ok _ said, bind_of_ok _ (listTokens_run _ _ _)]
        simp [listed, listing, asked, String.append_assoc]
      · simp [listed, listing, asked]
    rw [lists]
    have rest := processTokens_run limits options tokens listed
    cases parsed : Script.parseTokens limits tokens with
    | error error stream =>
      rw [parsed] at rest
      exact rest
    | ok program stream =>
      rw [parsed] at rest
      exact rest

/-- A text that is no program has the tokens listed, if that is asked for, and the error reported;
apart from the log nothing else happens. -/
theorem process_unparsed (failed : Script.parse limits source = .error error) (options : Options)
    (shell : Shell) :
    ∃ line ∈ ["", "Error: " ++ error.message ++ "\n"], ∃ noted,
      final (process limits options source shell) = { shell with
        stdout := shell.stdout ++ tokenListing options source ++ line
        stderr := noted } := by
  have begun := process_begins limits options source shell
  rw [failed] at begun
  obtain ⟨noted, begun⟩ := begun
  obtain ⟨line, listed, reported⟩ := report_final error { shell with
    stdout := shell.stdout ++ tokenListing options source, stderr := noted }
  exact ⟨line, listed, noted, by rw [begun, reported]⟩

end Console.Work

namespace Console

/-- The machines that are handed one text after the other from the start, by running it or by taking
it through all stages of the shell, whatever the limits, the options and the rest of the shell are. -/
inductive Session : Machine → Prop where
  | fresh : Session .fresh
  | run (limits : Limits) (source : String) (before : Session machine) :
      Session (Script.run limits source machine).2
  | process (limits : Limits) (options : Options) (source : String) {shell : Shell}
      (before : Session shell.machine) :
      Session (final (Work.process limits options source shell)).machine

theorem Session.current (session : Session machine) : machine.current = Machine.globalScope := by
  induction session with
  | fresh => rfl
  | run limits source _ ih => exact (Script.run_current limits source _).trans ih
  | process limits options source _ ih =>
    have kept := Work.sameScope_idle.process_keeps limits options source fun program _ machine =>
      Script.interpret_current limits program machine
    exact (kept _).trans ih

/-- Whatever is run, and however it ends, the machine comes back to the scope it was in. So between
texts it is in the global scope; and a text that is no program leaves the machine as it was and prints
nothing but the error, after the tokens if these are asked for. -/
theorem comes_back_to_scope (limits : Limits) :
    (∀ node, Keeps SameScope (Eval.evaluate limits node)) ∧
    (∀ node, Keeps SameScope (Eval.execute limits node)) ∧
    (∀ scope statements, Keeps SameScope
      (Eval.inScope scope (Eval.executeAll (Eval.execute limits) statements))) ∧
    (∀ callee arguments, Keeps SameScope (Eval.apply limits callee arguments)) ∧
    (∀ program, Keeps SameScope (Eval.interpret limits program)) ∧
    (∀ machine, Session machine → machine.current = Machine.globalScope) ∧
    (∀ source error, Script.parse limits source = .error error →
      (∀ machine, Script.run limits source machine = (.error error, machine)) ∧
      (∀ options shell, ∃ line ∈ ["", "Error: " ++ error.message ++ "\n"], ∃ noted,
        final (Work.process limits options source shell) = { shell with
          stdout := shell.stdout ++ Work.tokenListing options source ++ line
          stderr := noted })) := by
  have executed := Eval.execute_keeps sameScope_kept limits
  refine ⟨Eval.evaluate_keeps sameScope_kept limits, executed, ?_,
    Eval.apply_keeps sameScope_kept limits, Eval.interpret_keeps sameScope_kept limits,
    fun machine => Session.current, ?_⟩
  · intro scope statements
    exact sameScope_kept.inScope scope (Eval.executeAll_keeps sameScope_kept executed statements)
  · intro source error failed
    exact ⟨Script.run_unparsed failed, Work.process_unparsed failed⟩

/-- An unfinished line at the prompt: the machine is untouched, in the global scope. -/
theorem comes_back_to_scope_unfinishedLine :
    Script.run .standard "print (" .fresh =
        (.error (.parse (.expected .expression ⟨.endOfInput, "", 1⟩ "Expected expression")), .fresh) ∧
      (Script.run .standard "print (" .fresh).2.current = Machine.globalScope := by
  obtain ⟨-, -, -, -, -, settled, unparsed⟩ := comes_back_to_scope .standard
  have failed : Script.parse .standard "print (" =
      .error (.parse (.expected .expression ⟨.endOfInput, "", 1⟩ "Expected expression")) := by rfl
  exact ⟨(unparsed _ _ failed).1 .fresh, settled _ (.run _ _ .fresh)⟩

end Console

end Scriptlet
