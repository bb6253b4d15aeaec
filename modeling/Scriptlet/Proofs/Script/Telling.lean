import Scriptlet.Proofs.Machine.Telling

/-! Texts that are run one after the other and tell what they do: at each moment, the scopes of the machine
are well formed, lie where they were made, and every function sees names as its declaration did. -/
namespace Scriptlet.Script

open Chronicle

/-- Runs a text and tells what it does. -/
def tell (limits : Limits) (source : String) (chronicle : Chronicle) : Except Error Unit × Chronicle :=
  match parse limits source with
  | .error error => (.error error, chronicle)
  | .ok program =>
    match Telling.interpret limits program chronicle with
    | .ok _ after => (.ok (), after)
    | .error fault after => (.error (.run fault), after)

/-- The machine on which texts were run one after the other from the start. -/
def runAll (texts : List (Limits × String)) : Machine :=
  texts.foldl (fun machine text => (run text.1 text.2 machine).2) .fresh

/-- What happens while texts are run one after the other from the start. -/
def tellAll (texts : List (Limits × String)) : Chronicle :=
  texts.foldl (fun chronicle text => (tell text.1 text.2 chronicle).2) .fresh

variable {chronicle : Chronicle}

/-- A text that is told ends like the text that is run, and goes on properly from what was told. -/
theorem tell_run (limits : Limits) (source : String) (told : chronicle.Told) :
    Prod.map id machine (tell limits source chronicle) = run limits source chronicle.machine ∧
      (tell limits source chronicle).2.Told := by
  rw [tell, run]
  cases parse limits source with
  | error error => exact ⟨rfl, told⟩
  | ok program =>
    obtain ⟨same, ends⟩ := Telling.interpret_tells limits program chronicle told
    dsimp only
    rw [interpret, ← same]
    cases outcome : Telling.interpret limits program chronicle with
    | ok _ after =>
      rw [outcome] at ends
      exact ⟨rfl, ends.1⟩
    | error fault after =>
      rw [outcome] at ends
      exact ⟨rfl, ends.1⟩

theorem tellAll_run (texts : List (Limits × String)) :
    (tellAll texts).machine = runAll texts ∧ (tellAll texts).Told := by
  induction texts using List.reverseRecOn with
  | nil => exact ⟨rfl, .fresh⟩
  | append_singleton texts text ih =>
    obtain ⟨same, told⟩ := ih
    obtain ⟨runs, goesOn⟩ := tell_run text.1 text.2 told
    rw [tellAll, runAll, List.foldl_concat, List.foldl_concat]
    refine ⟨?_, goesOn⟩
    rw [same] at runs
    exact congrArg Prod.snd runs

/-- Whatever texts are run, their run can be told step by step, and what is told of a scope is never told
differently later. At each moment every scope lies in the one that it was made in, which is an earlier one,
and around them all is the global scope, so that the search for a name comes to an end; and no scope binds
a name twice. Each function that was ever there has a scope of its own, which binds nothing and lies in the
scope that was current when the function was declared, so that names stand for what they stand for
there. -/
theorem scopes_follow_history (texts : List (Limits × String)) :
    (tellAll texts).machine = runAll texts ∧
    (∀ limits source, (tell limits source (tellAll texts)).1 = (run limits source (runAll texts)).1) ∧
    (tellAll texts).Told ∧
    ∀ part : Chronicle, part.Leads (tellAll texts) →
      part.machine.Recorded part.history ∧
      part.machine.WellScoped ∧
      (∀ earlier : Chronicle, earlier.Leads part →
        earlier.history <+: part.history ∧ earlier.machine.KeepsLinks part.machine) ∧
      ∀ moment ∈ part.moments, ∀ function, moment.Shows function →
        ∃ declared before, part.Declares function declared before ∧
          part.machine.Closes function before.machine.current := by
  obtain ⟨same, told⟩ := tellAll_run texts
  refine ⟨same, fun limits source => ?_, told, fun part begins => ?_⟩
  · rw [← same, ← (tell_run limits source told).1]
    rfl
  · have toldPart := told.before begins
    refine ⟨toldPart.sound.recorded, toldPart.wellScoped, fun earlier leads => ?_, ?_⟩
    · exact ⟨leads.history, toldPart.keepsLinks leads⟩
    · exact fun moment member function shown => toldPart.closes member shown

/-- A function that is declared in a block sees a global name as the block does when it is called. -/
theorem scopes_follow_history_inBlock :
    let texts : List (Limits × String) := [(⟨50, 9⟩, "var x;{fn get(){return x;}get();}")]
    let body : Node := .block 1 [.returnStmt 1 (.reference 1 "x")]
    let function : Function := ⟨"get", [], body, 2⟩
    let machine : Machine := { Machine.fresh with
      forest := #[⟨none, [("x", .null)]⟩, ⟨some 0, [("get", .function function)]⟩, ⟨some 1, []⟩,
        ⟨some 2, []⟩]
      events := #[.called function 0] }
    runAll texts = machine ∧ machine.WellScoped ∧
    (∃ declared before, (tellAll texts).Declares function declared before ∧
      before.machine.current = 1) ∧
    machine.forest.resolve 3 "x" = machine.forest.resolve 1 "x" := by
  intro texts body function machine
  have ran : runAll texts = machine := by cbv
  obtain ⟨same, -, -, follows⟩ := scopes_follow_history texts
  obtain ⟨-, wellScoped, -, closes⟩ := follows (tellAll texts) (.refl _)
  rw [same, ran] at wellScoped
  have shown : (tellAll texts).present.Shows function := by
    refine .bound "get" ⟨some 0, [("get", .function function)]⟩ ?_ List.mem_cons_self
    rw [← Chronicle.machine, same, ran]
    simp [machine]
  obtain ⟨declared, before, declares, own, resolves⟩ := closes _ List.mem_cons_self function shown
  rw [same, ran] at own resolves
  have outer : before.machine.current = 1 := by
    simpa [machine, function] using own.symm
  have chain : machine.forest.Chain 3 ([3] ++ function.closure :: [1, 0]) :=
    .inner rfl rfl (.inner rfl rfl (.inner rfl rfl (.outermost rfl rfl)))
  rw [outer] at resolves
  exact ⟨ran, wellScoped, ⟨declared, before, declares, outer⟩,
    resolves 3 [3] [1, 0] "x" chain (by simp [Forest.isDefined, machine, Scope.binds, Scope.find?])⟩

end Scriptlet.Script
