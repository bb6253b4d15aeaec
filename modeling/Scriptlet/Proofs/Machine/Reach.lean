import Scriptlet.Proofs.Machine.Parallel
import Scriptlet.Proofs.Scope.Reach

/-! Code touches only what it can reach. A run stays within the scopes that can be reached when it starts
and those that it makes: it changes no others, it gets hold of no function that leads out of them, and it
cannot tell apart two machines that agree on them. -/
namespace Scriptlet

open Scriptlet.Action

/-- The machine runs code in a territory, which was entered when the scopes were as `start` says. -/
structure Machine.Confined (territory : Territory) (start : Forest) (size : Nat) (machine : Machine) :
    Prop where
  count : machine.forest.size = size
  grown : territory.old ≤ size
  here : territory.Owns size machine.current
  encloses : machine.forest.Encloses (territory.Owns size)
  leads : ∀ (id : ScopeId) scope, territory.Owns size id → machine.forest[id]? = some scope →
    scope.LeadsTo (territory.Owns size)
  untouched : ∀ id < territory.old, ¬ territory.reach id → machine.forest[id]? = start[id]?

namespace Machine.Confined

variable {territory : Territory} {start : Forest} {size later : Nat} {machine : Machine} {id : ScopeId}

/-- At the start, all is as it can be reached. -/
theorem start_agreeing {forest : Forest} {roots : ScopeId → Prop} (sameSize : machine.forest.size = forest.size)
    (same : ∀ id, forest.Reaches roots id → machine.forest[id]? = forest[id]?)
    (here : roots machine.current) :
    machine.Confined (.ofRoots forest roots) machine.forest forest.size where
  count := sameSize
  grown := Nat.le_refl _
  here := .inl (.root here)
  encloses id scope outer owns there inside := by
    have reached := Territory.Owns.reach_first owns
    rw [same id reached] at there
    exact .inl (.around reached there inside)
  leads id scope owns there binding listed function named := by
    have reached := Territory.Owns.reach_first owns
    rw [same id reached] at there
    obtain ⟨name, value⟩ := binding
    cases named
    exact .inl (.closure reached there listed)
  untouched _ _ _ := rfl

theorem moved (confined : machine.Confined territory start size) (owns : territory.Owns size id) :
    Confined territory start size { machine with current := id } :=
  { confined with here := owns }

/-- A change to a scope of the territory that leads nowhere else. -/
theorem modify (confined : machine.Confined territory start size) {home : ScopeId}
    (owns : territory.Owns size home) {change : Scope → Scope}
    (link : ∀ scope, (change scope).enclosing = scope.enclosing)
    (changed : ∀ scope, scope.LeadsTo (territory.Owns size) →
      (change scope).LeadsTo (territory.Owns size)) :
    Confined territory start size { machine with forest := machine.forest.modify home change } where
  count := by
    rw [← confined.count]
    exact Array.size_modify
  grown := confined.grown
  here := confined.here
  encloses id scope outer owned there inside := by
    rw [Array.getElem?_modify] at there
    split at there
    · obtain ⟨old, found, rfl⟩ := Option.map_eq_some_iff.mp there
      exact confined.encloses id old outer owned found ((link old).symm.trans inside)
    · exact confined.encloses id scope outer owned there inside
  leads id scope owned there := by
    dsimp only at there
    rw [Array.getElem?_modify] at there
    split at there
    · obtain ⟨old, found, rfl⟩ := Option.map_eq_some_iff.mp there
      exact changed old (confined.leads id old owned found)
    · exact confined.leads id scope owned there
  untouched id old outside := by
    have apart : home ≠ id := by
      rintro rfl
      exact outside (owns.reach old)
    dsimp only
    rw [Array.getElem?_modify, if_neg apart]
    exact confined.untouched id old outside

theorem push (confined : machine.Confined territory start size) {enclosing : ScopeId}
    (owns : territory.Owns size enclosing) :
    Confined territory start (size + 1)
      { machine with forest := machine.forest.push ⟨some enclosing, []⟩ } where
  count := by
    rw [← confined.count]
    exact Array.size_push _
  grown := Nat.le_succ_of_le confined.grown
  here := confined.here.grow (Nat.le_succ size)
  encloses id scope outer owned there inside := by
    rw [Array.getElem?_push] at there
    split at there
    · cases there
      cases inside
      exact owns.grow (Nat.le_succ size)
    · rename_i apart
      rw [confined.count] at apart
      exact (confined.encloses id scope outer (owned.earlier apart) there inside).grow (Nat.le_succ size)
  leads id scope owned there := by
    dsimp only at there
    rw [Array.getElem?_push] at there
    split at there
    · cases there
      intro binding listed
      cases listed
    · rename_i apart
      rw [confined.count] at apart
      exact (confined.leads id scope (owned.earlier apart) there).grow (Nat.le_succ size)
  untouched id old outside := by
    have apart : id ≠ machine.forest.size := by
      rw [confined.count]
      exact Nat.ne_of_lt (Nat.lt_of_lt_of_le old confined.grown)
    dsimp only
    rw [Array.getElem?_push, if_neg apart]
    exact confined.untouched id old outside

theorem owns_next (confined : machine.Confined territory start size) :
    territory.Owns (size + 1) machine.forest.size := by
  rw [confined.count]
  exact .inr ⟨confined.grown, Nat.lt_succ_self size⟩

theorem found (confined : machine.Confined territory start size)
    (got : machine.forest.get machine.current name = .ok value) :
    value.LiesIn (territory.Owns size) := by
  obtain ⟨home, scope, resolved, there, bound⟩ := Forest.get_eq_ok got
  have owns := Forest.resolve_own confined.encloses confined.here resolved
  exact confined.leads home scope owns there _ bound

theorem assign (confined : machine.Confined territory start size)
    (resolved : machine.forest.resolve machine.current name = some home)
    (lies : value.LiesIn (territory.Owns size)) :
    Confined territory start size
      { machine with forest := machine.forest.modify home (·.rebind name value) } :=
  confined.modify (Forest.resolve_own confined.encloses confined.here resolved) (fun _ => rfl)
    fun scope leads => scope.forall_rebind leads lies

theorem define (confined : machine.Confined territory start size)
    (lies : value.LiesIn (territory.Owns size)) :
    Confined territory start size
      { machine with forest := machine.forest.modify machine.current (·.bind name value) } :=
  confined.modify confined.here (fun _ => rfl) fun scope leads => scope.forall_bind leads lies

/-- The scope that is made next is inside the current one or that of a function of the territory. -/
theorem owns_lies (confined : machine.Confined territory start size)
    (lies : enclosing = machine.current ∨
      ∃ function, (Value.function function).LiesIn (territory.Owns size) ∧
        enclosing = function.closure) : territory.Owns size enclosing := by
  rcases lies with rfl | ⟨function, known, rfl⟩
  · exact confined.here
  · exact known function rfl

end Machine.Confined

namespace Eval

/-- The account of a territory: what is known is the number of scopes. -/
def confinement (territory : Territory) (start : Forest) : Account Nat where
  fits size machine := machine.Confined territory start size
  knows size value := value.LiesIn (territory.Owns size)
  change _ size later := size ≤ later
  refl := Nat.le_refl
  trans := Nat.le_trans
  any grown := grown
  keeps grown lies := lies.grow grown
  scalar _ _ _ same := by cases same
  found confined got := confined.found got
  reported _ _ confined := ⟨_, Nat.le_refl _, { confined with }⟩
  assigned confined lies resolved := ⟨_, Nat.le_refl _, confined.assign resolved lies⟩
  defined confined lies _ := ⟨_, Nat.le_refl _, confined.define lies⟩
  closed _ _ _ confined := by
    refine ⟨_, Nat.le_succ _, confined.push confined.here, fun function same => ?_⟩
    cases same
    exact confined.owns_next
  entered {size machine enclosing} confined lies := by
    have opened := confined.push (confined.owns_lies lies)
    refine ⟨size + 1, fun _ known => known.grow (Nat.le_succ size), opened.moved confined.owns_next, ?_⟩
    intro last after grown finished
    have all : size ≤ last := Nat.le_trans (Nat.le_succ size) grown
    exact ⟨last, all, finished.moved (confined.here.grow all), fun _ known => known⟩

/-- Two machines that agree on a territory, with what was printed and noted since `machine` and
`other`. -/
structure Agrees (territory : Territory) (machine other : Machine) (size : Nat) (now twin : Machine) :
    Prop where
  first : now.Confined territory machine.forest size
  second : twin.Confined territory other.forest size
  same : ∀ id, territory.Owns size id → twin.forest[id]? = now.forest[id]?
  current : twin.current = now.current
  printed : ∃ lines, now.output = machine.output ++ lines ∧ twin.output = other.output ++ lines
  noted : ∃ events, now.events = machine.events ++ events ∧ twin.events = other.events ++ events

namespace Agrees

variable {territory : Territory} {machine other now twin : Machine} {size : Nat} {id : ScopeId}

theorem view (agrees : Agrees territory machine other size now twin) (name : String) (id : ScopeId)
    (owns : territory.Owns size id) : twin.forest.view name id = now.forest.view name id := by
  rw [Forest.view, Forest.view, agrees.same id owns]

theorem resolve (agrees : Agrees territory machine other size now twin) (name : String) :
    twin.forest.resolve twin.current name = now.forest.resolve now.current name := by
  rw [agrees.current]
  exact Forest.resolve_congr agrees.first.encloses (agrees.view name) agrees.first.here

theorem get (agrees : Agrees territory machine other size now twin) (name : String) :
    twin.forest.get twin.current name = now.forest.get now.current name := by
  rw [agrees.current]
  exact Forest.get_congr agrees.first.encloses (agrees.view name) agrees.first.here

theorem moved (agrees : Agrees territory machine other size now twin) (owns : territory.Owns size id) :
    Agrees territory machine other size { now with current := id } { twin with current := id } :=
  { agrees with first := agrees.first.moved owns, second := agrees.second.moved owns, current := rfl }

/-- The same change to a scope of both machines. -/
theorem modify (agrees : Agrees territory machine other size now twin) {home place : ScopeId}
    {change : Scope → Scope} (alike : place = home)
    (first : Machine.Confined territory machine.forest size
      { now with forest := now.forest.modify home change })
    (second : Machine.Confined territory other.forest size
      { twin with forest := twin.forest.modify place change }) :
    Agrees territory machine other size { now with forest := now.forest.modify home change }
      { twin with forest := twin.forest.modify place change } where
  first := first
  second := second
  same id owns := by
    dsimp only
    rw [alike, Array.getElem?_modify, Array.getElem?_modify, agrees.same id owns]
  current := agrees.current
  printed := agrees.printed
  noted := agrees.noted

theorem push (agrees : Agrees territory machine other size now twin) {enclosing outer : ScopeId}
    (alike : outer = enclosing) (owns : territory.Owns size enclosing) :
    Agrees territory machine other (size + 1)
      { now with forest := now.forest.push ⟨some enclosing, []⟩ }
      { twin with forest := twin.forest.push ⟨some outer, []⟩ } where
  first := agrees.first.push owns
  second := by
    rw [alike]
    exact agrees.second.push owns
  same id owned := by
    dsimp only
    rw [alike, Array.getElem?_push, Array.getElem?_push, agrees.second.count, agrees.first.count]
    split
    · rfl
    · rename_i apart
      exact agrees.same id (owned.earlier apart)
  current := agrees.current
  printed := agrees.printed
  noted := agrees.noted

theorem print (agrees : Agrees territory machine other size now twin) (line : String) :
    Agrees territory machine other size { now with output := now.output.push line }
      { twin with output := twin.output.push line } where
  first := { agrees.first with }
  second := { agrees.second with }
  same := agrees.same
  current := agrees.current
  printed := by
    obtain ⟨lines, printed, printedToo⟩ := agrees.printed
    exact ⟨lines.push line, by rw [printed, Array.push_append], by rw [printedToo, Array.push_append]⟩
  noted := agrees.noted

theorem note (agrees : Agrees territory machine other size now twin) (event : Event) :
    Agrees territory machine other size { now with events := now.events.push event }
      { twin with events := twin.events.push event } where
  first := { agrees.first with }
  second := { agrees.second with }
  same := agrees.same
  current := agrees.current
  printed := agrees.printed
  noted := by
    obtain ⟨events, noted, notedToo⟩ := agrees.noted
    exact ⟨events.push event, by rw [noted, Array.push_append], by rw [notedToo, Array.push_append]⟩

end Agrees

/-- Machines that agree on a territory. -/
def agreement (territory : Territory) (machine other : Machine) : Parallel Nat where
  fits := Agrees territory machine other
  knows size value := value.LiesIn (territory.Owns size)
  allows _ := True
  change size later := size ≤ later
  refl := Nat.le_refl
  trans := Nat.le_trans
  keeps grown lies := lies.grow grown
  scalar _ _ _ same := by cases same
  callee _ _ _ := trivial
  size agrees := agrees.second.count.trans agrees.first.count.symm
  current := Agrees.current
  get agrees _ := agrees.get _
  resolve agrees _ := agrees.resolve _
  isDefined agrees _ := by
    rw [agrees.current]
    exact Forest.isDefined_congr (agrees.view _ _ agrees.first.here)
  found agrees got := agrees.first.found got
  printed line agrees := agrees.print line
  noted event agrees := agrees.note event
  assigned agrees _ lies resolved := by
    have resolvedToo := (agrees.resolve _).trans resolved
    exact ⟨_, Nat.le_refl _,
      agrees.modify rfl (agrees.first.assign resolved lies) (agrees.second.assign resolvedToo lies)⟩
  defined agrees _ lies _ :=
    ⟨_, Nat.le_refl _,
      agrees.modify agrees.current (agrees.first.define lies) (agrees.second.define lies)⟩
  closed agrees := by
    refine ⟨_, Nat.le_succ _, agrees.push agrees.current agrees.first.here,
      fun name params body _ function same => ?_⟩
    cases same
    exact agrees.first.owns_next
  entered {size now twin enclosing} agrees lies := by
    have opened := agrees.push (Eq.refl enclosing) (agrees.first.owns_lies lies)
    have sameSize : twin.forest.size = now.forest.size :=
      agrees.second.count.trans agrees.first.count.symm
    refine ⟨size + 1, Nat.le_succ size, ?_, fun grown finished => ?_⟩
    · rw [sameSize]
      exact opened.moved agrees.first.owns_next
    · rw [agrees.current]
      exact finished.moved (agrees.first.here.grow (Nat.le_trans (Nat.le_succ size) grown))

end Eval

end Scriptlet
