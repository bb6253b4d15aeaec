import Scriptlet.Proofs.Grammar.Soundness
import Scriptlet.Proofs.Grammar.StatementCompleteness
import Scriptlet.Proofs.Machine.EmptyScope
import Scriptlet.Proofs.Machine.Depth

/-! A `for` loop means what its expansion does. In the expansion the increment is executed in the scope
of the turn; this scope is empty by then, since the body of a loop declares nothing, and an empty scope
does not show. -/
namespace Scriptlet

open Scriptlet.Action Node Machine

/-- What a `for` loop may begin with. -/
def Node.beginsLoop : Node → Bool
  | .varDecl .. | .exprStmt .. | .absent => true
  | _ => false

namespace Eval

section

variable (evaluate : Node → Eval Value) (execute : Node → Eval Flow)

/-- An absent condition is true. -/
def loopTest (condition : Node) : Eval Bool := do
  if condition.isAbsent then return true else return (← evaluate condition).truthy

def loopStart (initializer : Node) : Eval Unit := do
  if initializer.isAbsent then return () else let _ ← execute initializer

def loopStep (increment : Node) : Eval Unit := do
  if increment.isAbsent then return () else let _ ← evaluate increment

/-- The body of a loop is executed in a fresh scope. -/
def loopTurn (body : Node) : Eval Flow := do
  let scope ← innerScope
  inScope scope (execute body)

end

/-- Turns of a loop with a step after each of them, unless it returns. -/
def forTurns (test : Eval Bool) (turn : Eval Flow) (step : Eval Unit) : (turns : Nat) → Eval Flow
  | 0 => throw .unfinished
  | turns + 1 => do
    if ← test then
      match ← turn with
      | .returned value => return .returned value
      | .normal =>
        step
        forTurns test turn step turns
    else return .normal

/-- A `for` loop by itself: one scope for the whole loop, in which it begins, tests its condition and
takes its steps, and another one inside it for each turn. -/
def forLoop (start : Eval Unit) (test : Eval Bool) (turn : Eval Flow) (step : Eval Unit)
    (turns : Nat) : Eval Flow := do
  let scope ← innerScope
  inScope scope do
    start
    forTurns test turn step turns

/-- Executes a `for` loop as it is, without its expansion. -/
def executeFor (limits : Limits) (initializer condition increment body : Node) : Eval Flow :=
  forLoop (loopStart (execute limits) initializer) (loopTest (evaluate limits) condition)
    (loopTurn (execute limits) body) (loopStep (evaluate limits) increment) limits.turns

/-- The run was cut off by the depth limit. -/
def CutOff (outcome : EStateM.Result Fault Machine α) : Prop :=
  ∃ fault after, fault.IsCut ∧ outcome = .error fault after

variable {machine : Machine} {initializer condition increment body : Node}

theorem begin_normal (begins : initializer.beginsLoop)
    (done : executeWithin turns depth initializer machine = .ok flow after) : flow = .normal := by
  cases depth with
  | zero => cases done
  | succ depth =>
    unfold beginsLoop at begins
    split at begins
    · rw [executeWithin, executeNode] at done
      split at done
      all_goals
        obtain ⟨_, _, -, done⟩ := bind_eq_ok.mp done
        obtain ⟨_, _, -, done⟩ := bind_eq_ok.mp done
        exact (pure_eq_ok.mp done).1.symm
    · obtain ⟨_, _, -, done⟩ := bind_eq_ok.mp done
      exact (pure_eq_ok.mp done).1.symm
    · cases done
    · cases begins

theorem loopTest_shape (turns depth : Nat) (condition : Node) :
    Keeps KeepsShape (loopTest (evaluateWithin turns depth) condition) := by
  unfold loopTest
  split
  · exact .refl
  · exact Keeps.bind KeepsShape.trans (evaluateWithin_passes turns depth condition).shape fun _ => .refl

theorem loopStep_passes (turns depth : Nat) (increment : Node) :
    Passes (loopStep (evaluateWithin turns depth) increment) := by
  unfold loopStep
  split
  · exact .pure ()
  · exact .bind (evaluateWithin_passes turns depth increment) fun _ => .pure ()

theorem loopTurn_links (turns depth : Nat) (body : Node) :
    Keeps KeepsLinks (loopTurn (executeWithin turns depth) body) := by
  refine links_kept.bind (links_kept.look fun _ => links_kept.newScope _) fun scope => ?_
  exact links_kept.inScope scope ((within_keeps links_kept turns depth).2 body)

theorem loopTurn_current (execute : Node → Eval Flow) (body : Node) (machine : Machine) :
    (final (loopTurn execute body machine)).current = machine.current := by
  have run : loopTurn execute body machine = inside machine.current (execute body) machine := rfl
  rw [run, inside_run, inScope]
  dsimp only
  split <;> rfl

/-- A step at the end of an empty scope may be taken after the scope is left. -/
theorem inScope_step {first : Eval Flow} {step : Eval Unit} {id : ScopeId} (passes : Passes step)
    (shape : Keeps KeepsShape first) (hollow : Hollow machine.current { machine with current := id }) :
    inScope id (do match ← first with
      | .returned value => return .returned value
      | .normal => step; return .normal) machine =
    (do match ← inScope id first with
      | .returned value => return .returned value
      | .normal => step; return .normal : Eval Flow) machine := by
  have left := hollow.later (shape { machine with current := id })
  rw [bind_run]
  unfold inScope
  dsimp only
  rw [bind_run]
  cases outcome : first { machine with current := id } with
  | error fault after => rfl
  | ok flow middle =>
    rw [outcome] at left
    cases flow with
    | returned value => rfl
    | normal =>
      have same := passes.same machine.current middle left
      have back := (passes.shape { middle with current := machine.current }).names.current
      unfold inScope at same
      dsimp only at same ⊢
      rw [bind_run, bind_run, same]
      cases stepped : step { middle with current := machine.current } with
      | ok value after =>
        rw [stepped] at back
        have current : after.current = machine.current := back
        rw [← current]
        rfl
      | error fault after =>
        rw [stepped] at back
        have current : after.current = machine.current := back
        rw [← current]

/-- A turn of the expanded loop is a turn of the loop itself and a step after it. -/
theorem turn_run (turns depth : Nat) (line : Int) (quiet : body.mayDeclare = false)
    (placed : machine.Placed machine.current) :
    executeWithin turns (depth + 2)
      (.block line (body :: if increment.isAbsent then [] else [.exprStmt line increment])) machine =
    (do match ← loopTurn (executeWithin turns (depth + 1)) body with
      | .returned value => return .returned value
      | .normal => loopStep (evaluateWithin turns depth) increment; return .normal : Eval Flow) machine := by
  have stepped (line : Int) : executeWithin turns (depth + 1) (.exprStmt line increment) =
      (do let _ ← evaluateWithin turns depth increment; return .normal) := rfl
  have all : executeAll (executeWithin turns (depth + 1))
      (body :: if increment.isAbsent then [] else [.exprStmt line increment]) =
      (do match ← executeWithin turns (depth + 1) body with
        | .returned value => return .returned value
        | .normal => loopStep (evaluateWithin turns depth) increment; return .normal) := by
    rw [executeAll, loopStep]
    congr 1
    funext flow
    cases flow with
    | returned value => rfl
    | normal =>
      by_cases absent : increment.isAbsent
      · simp [absent, executeAll]
      · simp [absent, executeAll, stepped]
  let opened : Machine := { machine with forest := machine.forest.push ⟨some machine.current, []⟩ }
  have hollow : Hollow opened.current { opened with current := machine.forest.size } :=
    placed.hollow placed.bounded
  have taken := inScope_step (loopStep_passes turns depth increment)
    (quiet_shape turns (depth + 1) quiet) hollow
  rw [executeWithin, executeNode, all]
  exact taken

theorem loopTest_run (turns depth : Nat) (line : Int) (condition : Node) :
    (do return (← evaluateWithin turns (depth + 1)
      (if condition.isAbsent then .literal line (.bool true) else condition)).truthy) =
    loopTest (evaluateWithin turns (depth + 1)) condition := by
  unfold loopTest
  split <;> rfl

/-- The expanded loop takes the turns of the loop itself. -/
theorem repeatWhile_run (turns depth : Nat) (line : Int) (condition : Node)
    (quiet : body.mayDeclare = false) (count : Nat) (placed : machine.Placed machine.current) :
    repeatWhile (evaluateWithin turns (depth + 2)) (executeWithin turns (depth + 2))
      (if condition.isAbsent then .literal line (.bool true) else condition)
      (.block line (body :: if increment.isAbsent then [] else [.exprStmt line increment])) count machine =
    forTurns (loopTest (evaluateWithin turns (depth + 2)) condition)
      (loopTurn (executeWithin turns (depth + 1)) body)
      (loopStep (evaluateWithin turns depth) increment) count machine := by
  induction count generalizing machine with
  | zero => rfl
  | succ count ih =>
    have tested := loopTest_shape turns (depth + 2) condition machine
    have test : (do return (← evaluateWithin turns (depth + 2) (if condition.isAbsent then
        .literal line (.bool true) else condition)).truthy : Eval Bool) machine =
        loopTest (evaluateWithin turns (depth + 2)) condition machine :=
      congrFun (loopTest_run turns (depth + 1) line condition) machine
    rw [repeatWhile, forTurns, bind_run, bind_run, ← test, bind_run]
    rw [← test, bind_run] at tested
    cases outcome : evaluateWithin turns (depth + 2)
      (if condition.isAbsent then .literal line (.bool true) else condition) machine with
    | error fault after => rfl
    | ok value middle =>
      rw [outcome] at tested
      have placed : middle.Placed middle.current := placed.stay tested.links tested.names.current
      dsimp only [pure_run]
      split
      · have linked := loopTurn_links turns (depth + 1) body middle
        have back := loopTurn_current (executeWithin turns (depth + 1)) body middle
        rw [bind_run, bind_run, turn_run turns depth line quiet placed, bind_run]
        cases turned : loopTurn (executeWithin turns (depth + 1)) body middle with
        | error fault after => rfl
        | ok flow after =>
          rw [turned] at linked back
          cases flow with
          | returned value => rfl
          | normal =>
            have placed : after.Placed after.current := placed.stay linked back
            have stepped := (loopStep_passes turns depth increment).shape after
            dsimp only
            rw [bind_run, bind_run]
            cases taken : loopStep (evaluateWithin turns depth) increment after with
            | error fault last => rfl
            | ok done last =>
              rw [taken] at stepped
              exact ih (placed.stay stepped.links stepped.names.current)
      · rfl

theorem inScope_congr {action other : Eval α} {id : ScopeId}
    (same : action { machine with current := id } = other { machine with current := id }) :
    inScope id action machine = inScope id other machine := by
  unfold inScope
  rw [same]

theorem executeAll_single (execute : Node → Eval Flow) (statement : Node) :
    executeAll execute [statement] = execute statement := by
  funext machine
  rw [executeAll, bind_run]
  cases execute statement machine with
  | error fault after => rfl
  | ok flow after => cases flow <;> rfl

/-- What a loop begins with never returns, so the loop itself comes after it. -/
theorem begin_run (turns depth : Nat) (begins : initializer.beginsLoop) (loop : Node) :
    executeAll (executeWithin turns depth) (if initializer.isAbsent then [loop] else [initializer, loop]) =
      (do loopStart (executeWithin turns depth) initializer; executeWithin turns depth loop) := by
  rw [loopStart]
  by_cases absent : initializer.isAbsent
  · rw [if_pos absent, if_pos absent, executeAll_single]
    rfl
  · rw [if_neg absent, if_neg absent, executeAll, executeAll_single]
    funext machine
    rw [bind_run, bind_assoc, bind_run]
    cases began : executeWithin turns depth initializer machine with
    | error fault after => rfl
    | ok flow after =>
      cases begin_normal begins began
      rfl

theorem loopStart_stays (turns depth : Nat) (initializer : Node)
    (placed : machine.Placed machine.current)
    (began : loopStart (executeWithin turns depth) initializer machine = .ok done after) :
    after.Placed after.current := by
  unfold loopStart at began
  split at began
  · obtain ⟨-, rfl⟩ := pure_eq_ok.mp began
    exact placed
  · obtain ⟨flow, middle, executed, ended⟩ := bind_eq_ok.mp began
    obtain ⟨-, rfl⟩ := pure_eq_ok.mp ended
    have links := (within_keeps links_kept turns depth).2 initializer machine
    obtain ⟨_, ⟨added, adds⟩, rfl⟩ :=
      (namesAccount.executeWithin_covers turns depth initializer machine machine rfl).2.final
    rw [executed] at links adds
    exact placed.stay links adds.current

/-- The expansion of a loop does what the loop itself does, except that its parts nest deeper: the
condition by one level, the body by two and the increment by three. -/
theorem expandFor_run (turns depth : Nat) (line : Int) (condition increment : Node)
    (begins : initializer.beginsLoop) (quiet : body.mayDeclare = false)
    (placed : machine.Placed machine.current) :
    executeWithin turns (depth + 4) (expandFor line initializer condition increment body) machine =
      forLoop (loopStart (executeWithin turns (depth + 3)) initializer)
        (loopTest (evaluateWithin turns (depth + 2)) condition)
        (loopTurn (executeWithin turns (depth + 1)) body)
        (loopStep (evaluateWithin turns depth) increment) turns machine := by
  let opened : Machine := { machine with
    forest := machine.forest.push ⟨some machine.current, []⟩
    current := machine.forest.size }
  have start : opened.Placed opened.current := (placed.hollow placed.bounded).placed_current
  let loop : Node :=
    .whileStmt line (if condition.isAbsent then .literal line (.bool true) else condition)
      (.block line (body :: if increment.isAbsent then [] else [.exprStmt line increment]))
  have inner : executeAll (executeWithin turns (depth + 3)) (if initializer.isAbsent then [loop] else
        [initializer, loop]) opened = (do
      loopStart (executeWithin turns (depth + 3)) initializer
      forTurns (loopTest (evaluateWithin turns (depth + 2)) condition)
        (loopTurn (executeWithin turns (depth + 1)) body)
        (loopStep (evaluateWithin turns depth) increment) turns : Eval Flow) opened := by
    rw [begin_run turns (depth + 3) begins, bind_run, bind_run]
    cases began : loopStart (executeWithin turns (depth + 3)) initializer opened with
    | error fault after => rfl
    | ok done after =>
      exact repeatWhile_run turns depth line condition quiet turns (loopStart_stays _ _ _ start began)
  have run (action : Eval Flow) : (do let scope ← innerScope; inScope scope action : Eval Flow) machine =
      inScope machine.forest.size action { opened with current := machine.current } := rfl
  rw [forLoop, run, ← inScope_congr inner]
  rfl

theorem forTurns_truncates {test test' : Eval Bool} {turn turn' : Eval Flow} {step step' : Eval Unit}
    (tested : Truncates test test') (turned : Truncates turn turn') (stepped : Truncates step step')
    (turns : Nat) : Truncates (forTurns test turn step turns) (forTurns test' turn' step' turns) := by
  induction turns with
  | zero => exact .refl (prints_kept.throw _)
  | succ turns ih =>
    refine .bind tested fun value => ?_
    split
    · refine .bind turned fun flow => ?_
      cases flow with
      | normal => exact .bind stepped fun _ => ih
      | returned value => exact .refl (prints_kept.pure _)
    · exact .refl (prints_kept.pure _)

section

variable (turns : Nat) (initializer condition increment body : Node)

theorem loopStart_truncates (more : depth ≤ deeper) :
    Truncates (loopStart (executeWithin turns depth) initializer)
      (loopStart (executeWithin turns deeper) initializer) := by
  unfold loopStart
  split
  · exact .refl (prints_kept.pure _)
  · exact .bind ((within_truncates turns more).2 initializer) fun _ => .refl (prints_kept.pure _)

theorem loopTest_truncates (more : depth ≤ deeper) :
    Truncates (loopTest (evaluateWithin turns depth) condition)
      (loopTest (evaluateWithin turns deeper) condition) := by
  unfold loopTest
  split
  · exact .refl (prints_kept.pure _)
  · exact .bind ((within_truncates turns more).1 condition) fun _ => .refl (prints_kept.pure _)

theorem loopStep_truncates (more : depth ≤ deeper) :
    Truncates (loopStep (evaluateWithin turns depth) increment)
      (loopStep (evaluateWithin turns deeper) increment) := by
  unfold loopStep
  split
  · exact .refl (prints_kept.pure _)
  · exact .bind ((within_truncates turns more).1 increment) fun _ => .refl (prints_kept.pure _)

theorem loopTurn_truncates (more : depth ≤ deeper) :
    Truncates (loopTurn (executeWithin turns depth) body) (loopTurn (executeWithin turns deeper) body) := by
  have opened : Truncates innerScope innerScope :=
    .refl (prints_kept.look fun _ => prints_kept.newScope _)
  exact .bind opened fun scope => inScope_truncates scope ((within_truncates turns more).2 body)

end

theorem forLoop_truncates {start start' : Eval Unit} {test test' : Eval Bool} {turn turn' : Eval Flow}
    {step step' : Eval Unit} (started : Truncates start start') (tested : Truncates test test')
    (turned : Truncates turn turn') (stepped : Truncates step step') (turns : Nat) :
    Truncates (forLoop start test turn step turns) (forLoop start' test' turn' step' turns) := by
  have opened : Truncates innerScope innerScope :=
    .refl (prints_kept.look fun _ => prints_kept.newScope _)
  refine .bind opened fun scope => inScope_truncates scope ?_
  exact .bind started fun _ => forTurns_truncates tested turned stepped turns

/-- Unless one of them is cut off, the expansion of a loop under a limit and the loop itself do the
same. The expansion nests at most four levels deeper. -/
theorem expandFor_meaning (limits : Limits) (line : Int) (condition increment : Node)
    (begins : initializer.beginsLoop) (quiet : body.mayDeclare = false)
    (placed : machine.Placed machine.current) :
    let deeper : Limits := { limits with depth := limits.depth + 4 }
    let expanded := execute deeper (expandFor line initializer condition increment body) machine
    let direct := executeFor limits initializer condition increment body machine
    (expanded = direct ∨ CutOff direct) ∧
      (executeFor deeper initializer condition increment body machine = expanded ∨ CutOff expanded) := by
  intro deeper expanded direct
  have same : expanded = _ :=
    expandFor_run limits.turns limits.depth line condition increment begins quiet placed
  rw [same]
  constructor
  · have below := (forLoop_truncates (loopStart_truncates limits.turns initializer (Nat.le_add_right limits.depth 3))
      (loopTest_truncates limits.turns condition (Nat.le_add_right limits.depth 2))
      (loopTurn_truncates limits.turns body (Nat.le_add_right limits.depth 1))
      (loopStep_truncates limits.turns increment (Nat.le_refl limits.depth)) limits.turns).agrees machine
    rcases below with equal | ⟨fault, reached, isCut, failed, -⟩
    · exact .inl equal.symm
    · exact .inr ⟨fault, reached, isCut, failed⟩
  · have above := (forLoop_truncates
      (loopStart_truncates limits.turns initializer (Nat.le_succ (limits.depth + 3)))
      (loopTest_truncates limits.turns condition (Nat.le_add_right (limits.depth + 2) 2))
      (loopTurn_truncates limits.turns body (Nat.le_add_right (limits.depth + 1) 3))
      (loopStep_truncates limits.turns increment (Nat.le_add_right limits.depth 4)) limits.turns).agrees machine
    rcases above with equal | ⟨fault, reached, isCut, failed, -⟩
    · exact .inl equal.symm
    · exact .inr ⟨fault, reached, isCut, failed⟩

end Eval

namespace Grammar

/-- The phrases that declare no name where they stand. -/
theorem Derives.quiet (derivation : Derives phrase beforeElse span node)
    (inner : phrase ∉ [Phrase.declaration, .variableDeclaration, .functionDeclaration]) :
    node.mayDeclare = false := by
  induction derivation with
  | @alternative phrase _ _ _ _ listed _ ih =>
    have apart : ∀ part ∈ phrase.alternatives,
        part ∉ [Phrase.declaration, .variableDeclaration, .functionDeclaration] := by
      cases phrase <;> first | decide | exact absurd (by decide) inner
    exact ih (apart _ listed)
  | uninitialized | initialized | function => simp at inner
  | ifOnly _ _ _ _ _ _ ih => simp [mayDeclare, ih (by decide)]
  | ifElse _ _ _ _ _ _ _ _ ih ihElse => simp [mayDeclare, ih (by decide), ihElse (by decide)]
  | whileLoop _ _ _ _ _ _ ih => simp [mayDeclare, ih (by decide)]
  | group _ _ _ ih => exact ih (by decide)
  | _ => rfl

theorem Derives.beginsLoop (derivation : Derives phrase beforeElse span node)
    (starts : phrase ∈ [Phrase.variableDeclaration, .expressionStatement]) : node.beginsLoop := by
  have alone := alternatives_of_starts starts
  cases derivation with
  | alternative listed => simp [alone] at listed
  | binary level => simp [alone] at level
  | uninitialized | initialized | expressionStatement => rfl
  | _ => simp at starts

/-- What stands for a `for` loop is the expansion of one whose body declares nothing. -/
theorem Derives.exists_loop (derivation : Derives .forStatement beforeElse span node) :
    ∃ line initializer condition increment body,
      desugar? (.forStmt line initializer condition increment body) = some node ∧
        initializer.beginsLoop ∧ body.mayDeclare = false := by
  cases derivation with
  | alternative listed => cases listed
  | binary level => cases level
  | forLoop isFor opens starts initializer endsFirst condition endsSecond increment closes body =>
    refine ⟨_, _, _, _, _, congrArg some (expandFor_clauses (fun some => (initializer some).present)
      (fun some => (condition some).present) fun some => (increment some).present), ?_,
      body.quiet (by decide)⟩
    split
    · rfl
    · rename_i some
      exact (initializer some).beginsLoop starts

end Grammar

open Eval in
/-- What the parser makes of a `for` loop does what the loop itself does: the same end, the same output
and the same scopes. This holds on every machine that a run comes by, which all have a history. The
parts of the expansion nest deeper than those of the loop, the condition by one level, the body by two
and the increment by three; apart from that, either may be cut off by the depth limit. -/
theorem for_keeps_its_meaning {stream : Stream} (terminated : stream.Terminated)
    (parsed : Phrase.forStatement.parseWithin turns depth stream = .ok node after) :
    (∀ machine, Script.Reached machine → ∃ history, machine.Recorded history ∧ ∀ limits source,
      Script.runChecked (Machine.continues history) limits source machine =
        Script.run limits source machine) ∧
    ∃ line initializer condition increment body,
      desugar? (.forStmt line initializer condition increment body) = some node ∧
      ∀ machine, (∃ history, machine.Recorded history) → ∀ limits : Limits,
        let deeper : Limits := { limits with depth := limits.depth + 4 }
        let expanded := execute deeper node machine
        let direct := executeFor limits initializer condition increment body machine
        expanded = forLoop (loopStart (executeWithin limits.turns (limits.depth + 3)) initializer)
          (loopTest (evaluateWithin limits.turns (limits.depth + 2)) condition)
          (loopTurn (executeWithin limits.turns (limits.depth + 1)) body)
          (loopStep (evaluateWithin limits.turns limits.depth) increment) limits.turns machine ∧
        (expanded = direct ∨ CutOff direct) ∧
        (executeFor deeper initializer condition increment body machine = expanded ∨
          CutOff expanded) := by
  obtain ⟨span, -, derivation⟩ := Grammar.parseWithin_sound turns depth terminated parsed
  obtain ⟨line, initializer, condition, increment, body, expands, begins, quiet⟩ := derivation.exists_loop
  cases expands
  refine ⟨fun machine reached => ?_, line, initializer, condition, increment, body, rfl, ?_⟩
  · obtain ⟨history, recorded⟩ := reached.recorded
    exact ⟨history, recorded, fun limits source => (Script.run_recorded limits source recorded).1⟩
  · rintro machine ⟨history, recorded⟩ limits
    have placed : machine.Placed machine.current := recorded.placed
    exact ⟨expandFor_run limits.turns limits.depth line condition increment begins quiet placed,
      expandFor_meaning limits line condition increment begins quiet placed⟩

open Eval in
/-- A loop whose increment ends it prints once, be it expanded or not. -/
theorem for_keeps_its_meaning_once :
    let tokens : List Token :=
      [⟨.forWord, "for", 1⟩, ⟨.leftParen, "(", 1⟩, ⟨.varWord, "var", 1⟩, ⟨.identifier, "on", 1⟩,
       ⟨.assign, "=", 1⟩, ⟨.trueWord, "true", 1⟩, ⟨.semicolon, ";", 1⟩, ⟨.identifier, "on", 1⟩,
       ⟨.semicolon, ";", 1⟩, ⟨.identifier, "on", 1⟩, ⟨.assign, "=", 1⟩, ⟨.falseWord, "false", 1⟩,
       ⟨.rightParen, ")", 1⟩, ⟨.printWord, "print", 1⟩, ⟨.identifier, "on", 1⟩, ⟨.semicolon, ";", 1⟩,
       ⟨.endOfInput, "", 1⟩]
    ∃ node after initializer condition increment body done,
      (Stream.ofTokens tokens).Terminated ∧
      Phrase.forStatement.parseWithin 17 50 (Stream.ofTokens tokens) = .ok node after ∧
      (∃ history, Machine.fresh.Recorded history) ∧
      execute ⟨54, 9⟩ node .fresh = .ok .normal done ∧ done.output = #["true"] ∧
      executeFor ⟨54, 9⟩ initializer condition increment body .fresh = .ok .normal done := by
  intro tokens
  have terminated : (Stream.ofTokens tokens).Terminated := rfl
  have parsed : Phrase.forStatement.parseWithin 17 50 (Stream.ofTokens tokens) = .ok
      (.block 1 [.varDecl 1 "on" (.literal 1 (.bool true)), .whileStmt 1 (.reference 1 "on")
        (.block 1 [.printStmt 1 (.reference 1 "on"),
          .exprStmt 1 (.assignment 1 "on" (.literal 1 (.bool false)))])])
      ⟨⟨.endOfInput, "", 1⟩, [], 16, #[]⟩ := by
    cbv
  obtain ⟨started, line, initializer, condition, increment, body, -, means⟩ :=
    for_keeps_its_meaning terminated parsed
  obtain ⟨history, recorded, -⟩ := started .fresh .fresh
  obtain ⟨-, -, whole⟩ := means .fresh ⟨history, recorded⟩ ⟨50, 9⟩
  have ran : execute ⟨54, 9⟩ (.block 1 [.varDecl 1 "on" (.literal 1 (.bool true)),
      .whileStmt 1 (.reference 1 "on") (.block 1 [.printStmt 1 (.reference 1 "on"),
        .exprStmt 1 (.assignment 1 "on" (.literal 1 (.bool false)))])]) .fresh =
      .ok .normal ⟨#[⟨none, []⟩, ⟨some 0, [("on", .bool false)]⟩, ⟨some 1, []⟩], 0, #["true"], #[]⟩ := rfl
  refine ⟨_, _, initializer, condition, increment, body, _, terminated, parsed, ⟨history, recorded⟩,
    ran, rfl, ?_⟩
  rcases whole with same | ⟨fault, reached, -, failed⟩
  · exact same.trans ran
  · cases ran.symm.trans failed

end Scriptlet
