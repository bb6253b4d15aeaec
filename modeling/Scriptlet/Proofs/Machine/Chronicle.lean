import Scriptlet.Proofs.Machine.History

/-! A chronicle tells a run moment by moment: each elementary step of the machine, and the machine after
it. What came to be is never told differently later, so a chronicle has a history of its scopes that only
grows, and at each of its moments the scopes are as the history up to there says. -/
namespace Scriptlet

/-- An elementary step of a run. -/
inductive Deed where
  | began
  | printed (line : String)
  | noted (event : Event)
  | assigned (name : String) (value : Value)
  | defined (home : ScopeId) (name : String) (value : Value)
  /-- A scope for a block or a call was made. -/
  | opened (outer : ScopeId)
  /-- A declaration made its function, and a scope for it. -/
  | declared (function : Function)
  /-- Another scope became the current one. -/
  | moved (id : ScopeId)
  | found (value : Value)
  | failed (fault : Fault)

namespace Deed

/-- What a deed makes of a machine. -/
def after : Deed → Machine → Machine
  | .began, _ => .fresh
  | .printed line, machine => { machine with output := machine.output.push line }
  | .noted event, machine => { machine with events := machine.events.push event }
  | .assigned name value, machine =>
    match machine.forest.resolve machine.current name with
    | some home => { machine with forest := machine.forest.modify home (·.rebind name value) }
    | none => machine
  | .defined home name value, machine =>
    { machine with forest := machine.forest.modify home (·.bind name value) }
  | .opened outer, machine => { machine with forest := machine.forest.push ⟨some outer, []⟩ }
  | .declared _, machine =>
    { machine with forest := machine.forest.push ⟨some machine.current, []⟩ }
  | .moved id, machine => { machine with current := id }
  | .found _, machine | .failed _, machine => machine

/-- How the scope came to be that a deed made in the current scope, if it made any. -/
def births (current : ScopeId) : Deed → History
  | .began => [.global]
  | .opened outer => [.opened outer]
  | .declared _ => [.closure current]
  | _ => []

end Deed

/-- A deed with the machine after it. -/
structure Moment where
  deed : Deed
  machine : Machine

/-- Of some moments, the last one first, how the scopes came to be that were made at them. -/
def Moment.births : List Moment → History
  | [] => []
  | ⟨deed, machine⟩ :: past => births past ++ deed.births machine.current

/-- A function is there at the moment: it has just been declared, it is the value that has just been found,
or a scope binds a name to it. -/
inductive Moment.Shows (moment : Moment) (function : Function) : Prop where
  | declared (done : moment.deed = .declared function)
  | found (done : moment.deed = .found (.function function))
  | bound (name : String) (scope : Scope) (there : scope ∈ moment.machine.forest)
      (listed : (name, .function function) ∈ scope.bindings)

/-- The present moment and those before it, from the last one to the first. -/
structure Chronicle where
  present : Moment
  past : List Moment

namespace Chronicle

def fresh : Chronicle :=
  ⟨⟨.began, .fresh⟩, []⟩

def moments (chronicle : Chronicle) : List Moment :=
  chronicle.present :: chronicle.past

def machine (chronicle : Chronicle) : Machine :=
  chronicle.present.machine

def add (chronicle : Chronicle) (deed : Deed) (machine : Machine) : Chronicle :=
  ⟨⟨deed, machine⟩, chronicle.moments⟩

def history (chronicle : Chronicle) : History :=
  Moment.births chronicle.moments

/-- The later chronicle tells all that this one tells, and goes on from there. -/
def Leads (chronicle later : Chronicle) : Prop :=
  chronicle.moments <:+ later.moments

/-- The functions that there are were declared. -/
def Knows (chronicle : Chronicle) : Value → Prop
  | .scalar _ => True
  | .function function => ∃ moment ∈ chronicle.moments, moment.deed = .declared function

/-- A scope in which something may be executed: one that was not made for a function. -/
def Free (chronicle : Chronicle) (id : ScopeId) : Prop :=
  ∃ birth, chronicle.history[id]? = some birth ∧ ∀ outer, birth ≠ .closure outer

/-- When a deed may follow. -/
def Allows (chronicle : Chronicle) : Deed → Prop
  | .began => False
  | .printed _ | .noted _ | .failed _ => True
  | .assigned _ value | .found value => chronicle.Knows value
  | .defined home name value =>
    chronicle.Free home ∧ chronicle.Knows value ∧
      chronicle.machine.forest.isDefined home name = false
  | .opened outer => outer = chronicle.machine.current ∨
    ∃ function, chronicle.Knows (.function function) ∧ outer = function.closure
  | .declared function => function.closure = chronicle.machine.forest.size
  | .moved id => chronicle.Free id

/-- The chronicles in which one deed follows the other as it may, from the start on. -/
inductive Told : Chronicle → Prop where
  | fresh : Told .fresh
  | next (told : Told chronicle) (allowed : chronicle.Allows deed) :
      Told (chronicle.add deed (deed.after chronicle.machine))

variable {chronicle later last : Chronicle} {deed : Deed} {machine : Machine} {function : Function}
variable {id : ScopeId}

/-- A deed that makes no scope adds nothing to the history. -/
theorem history_quiet (quiet : deed.births machine.current = []) :
    (chronicle.add deed machine).history = chronicle.history := by
  have added : (chronicle.add deed machine).history =
      chronicle.history ++ deed.births machine.current := rfl
  rw [added, quiet, List.append_nil]

theorem Leads.refl (chronicle : Chronicle) : chronicle.Leads chronicle :=
  List.suffix_refl _

theorem Leads.trans (first : chronicle.Leads later) (second : later.Leads last) :
    chronicle.Leads last :=
  List.IsSuffix.trans first second

theorem leads_add (chronicle : Chronicle) (deed : Deed) (machine : Machine) :
    chronicle.Leads (chronicle.add deed machine) :=
  List.suffix_cons _ _

theorem eq_of_moments (same : later.moments = chronicle.moments) : later = chronicle := by
  obtain ⟨present, past⟩ := chronicle
  obtain ⟨rfl, rfl⟩ := List.cons.inj same
  rfl

/-- The history is only added to. -/
theorem Leads.history (leads : chronicle.Leads later) : chronicle.history <+: later.history := by
  obtain ⟨more, same⟩ := leads
  rw [Chronicle.history, Chronicle.history, ← same]
  clear same
  induction more with
  | nil => exact List.prefix_refl _
  | cons moment more ih => exact ih.trans (List.prefix_append _ _)

theorem Knows.grow (known : chronicle.Knows value) (leads : chronicle.Leads later) :
    later.Knows value := by
  cases value with
  | scalar _ => trivial
  | function function =>
    obtain ⟨moment, member, declared⟩ := known
    exact ⟨moment, leads.subset member, declared⟩

theorem Free.grow (free : chronicle.Free id) (leads : chronicle.Leads later) : later.Free id := by
  obtain ⟨birth, born, apart⟩ := free
  exact ⟨birth, History.at_later leads.history born, apart⟩

theorem Free.bounded (free : chronicle.Free id) : id < chronicle.history.length := by
  obtain ⟨birth, born, -⟩ := free
  exact (List.getElem?_eq_some_iff.mp born).1

theorem Free.apart (free : chronicle.Free id) (outer : ScopeId) :
    chronicle.history[id]? ≠ some (.closure outer) := by
  obtain ⟨birth, born, apart⟩ := free
  rw [born]
  exact fun closes => apart outer (Option.some.inj closes)

/-- A function that was declared by the latest deed, or one that was known before. -/
theorem knows_add (known : (chronicle.add deed machine).Knows (.function function)) :
    deed = .declared function ∨ chronicle.Knows (.function function) := by
  obtain ⟨moment, member, declared⟩ := known
  rcases List.mem_cons.mp member with rfl | old
  · exact .inl declared
  · exact .inr ⟨moment, old, declared⟩

/-- The beginning of a chronicle is one itself. -/
theorem Told.before (told : later.Told) (leads : chronicle.Leads later) : chronicle.Told := by
  induction told with
  | fresh =>
    rcases List.suffix_cons_iff.mp leads with same | none
    · have whole : chronicle = .fresh := eq_of_moments same
      exact whole ▸ .fresh
    · cases List.suffix_nil.mp none
  | next told allowed ih =>
    rcases List.suffix_cons_iff.mp leads with same | earlier
    · have whole : chronicle = add _ _ _ := eq_of_moments same
      exact whole ▸ told.next allowed
    · exact ih earlier

/-- The moment at which a function was declared and the one before it: the scope of the function is the
one that was made then, inside the scope that was current. -/
def Declares (chronicle : Chronicle) (function : Function) (declared before : Moment) : Prop :=
  [declared, before] <:+: chronicle.moments ∧ declared.deed = .declared function ∧
    function.closure = before.machine.forest.size ∧
    chronicle.history[function.closure]? = some (.closure before.machine.current)

theorem Declares.grow {declared before : Moment} (declares : chronicle.Declares function declared before)
    (leads : chronicle.Leads later) : later.Declares function declared before := by
  obtain ⟨adjacent, deed, next, born⟩ := declares
  exact ⟨adjacent.trans leads.isInfix, deed, next, History.at_later leads.history born⟩

/-- At the present moment the scopes are as the history says, every known function was declared, and so
was every function that a scope holds. -/
structure Sound (chronicle : Chronicle) : Prop where
  recorded : chronicle.machine.Recorded chronicle.history
  declared : ∀ function, chronicle.Knows (.function function) →
    ∃ declared before, chronicle.Declares function declared before
  stored : ∀ scope ∈ chronicle.machine.forest, ∀ binding ∈ scope.bindings,
    chronicle.Knows binding.2

namespace Sound

theorem fresh : Chronicle.fresh.Sound where
  recorded := .fresh
  declared function known := by
    obtain ⟨moment, member, declared⟩ := known
    cases List.mem_singleton.mp member
    cases declared
  stored scope member binding listed := by
    cases Array.mem_singleton.mp member
    cases listed

theorem knows (sound : chronicle.Sound) (known : chronicle.Knows value) :
    chronicle.history.Knows value := by
  cases value with
  | scalar _ => trivial
  | function function =>
    obtain ⟨declared, before, -, -, -, born⟩ := sound.declared function known
    exact ⟨_, born⟩

theorem current (sound : chronicle.Sound) : chronicle.Free chronicle.machine.current := by
  have born := List.getElem?_eq_getElem sound.recorded.bounded
  refine ⟨_, born, fun outer closes => sound.recorded.apart outer ?_⟩
  rw [born, closes]

/-- One deed keeps to the history, which grows by the scope that the deed makes. -/
theorem recorded_next (sound : chronicle.Sound) (allowed : chronicle.Allows deed) :
    (deed.after chronicle.machine).Recorded
      (chronicle.add deed (deed.after chronicle.machine)).history := by
  have recorded := sound.recorded
  cases deed with
  | began => cases allowed
  | assigned name value =>
    rw [history_quiet rfl, Deed.after]
    split
    · exact recorded.modify _ fun _ _ _ _ keeps => keeps.rebind name (sound.knows allowed)
    · exact recorded
  | defined home name value =>
    obtain ⟨free, known, unbound⟩ := allowed
    rw [history_quiet rfl]
    exact recorded.bind free.apart (sound.knows known) unbound
  | opened outer =>
    refine recorded.push rfl ?_
    rcases allowed with rfl | ⟨function, known, rfl⟩
    · exact recorded.bounded
    · obtain ⟨_, born⟩ := sound.knows known
      exact (List.getElem?_eq_some_iff.mp born).1
  | declared function => exact recorded.push rfl recorded.bounded
  | moved id =>
    rw [history_quiet rfl]
    exact { recorded with bounded := Free.bounded allowed, apart := Free.apart allowed }
  | _ =>
    rw [history_quiet rfl]
    exact { recorded with }

theorem declared_next (sound : chronicle.Sound) (allowed : chronicle.Allows deed)
    (known : (chronicle.add deed (deed.after chronicle.machine)).Knows (.function function)) :
    ∃ declared before,
      (chronicle.add deed (deed.after chronicle.machine)).Declares function declared before := by
  rcases knows_add known with rfl | known
  · refine ⟨⟨.declared function, Deed.after (.declared function) chronicle.machine⟩,
      chronicle.present, ⟨[], chronicle.past, rfl⟩, rfl, allowed, ?_⟩
    have latest : function.closure = chronicle.history.length := allowed.trans sound.recorded.size
    rw [latest]
    exact List.getElem?_concat_length
  · obtain ⟨declared, before, declares⟩ := sound.declared function known
    exact ⟨declared, before, declares.grow (leads_add _ _ _)⟩

theorem stored_next (sound : chronicle.Sound) (allowed : chronicle.Allows deed) :
    ∀ scope ∈ (deed.after chronicle.machine).forest, ∀ binding ∈ scope.bindings,
      chronicle.Knows binding.2 := by
  have pushed : ∀ outer, ∀ scope ∈ chronicle.machine.forest.push ⟨some outer, []⟩,
      ∀ binding ∈ scope.bindings, chronicle.Knows binding.2 := by
    intro outer scope member binding listed
    rcases Array.mem_push.mp member with old | rfl
    · exact sound.stored scope old binding listed
    · cases listed
  cases deed with
  | began => cases allowed
  | assigned name value =>
    rw [Deed.after]
    split
    · exact Eval.forall_modify sound.stored fun scope each => scope.forall_rebind each allowed
    · exact sound.stored
  | defined home name value =>
    exact Eval.forall_modify sound.stored fun scope each => scope.forall_bind each allowed.2.1
  | opened outer => exact pushed outer
  | declared function => exact pushed _
  | _ => exact sound.stored

theorem next (sound : chronicle.Sound) (allowed : chronicle.Allows deed) :
    (chronicle.add deed (deed.after chronicle.machine)).Sound where
  recorded := sound.recorded_next allowed
  declared _ known := sound.declared_next allowed known
  stored scope member binding listed :=
    (sound.stored_next allowed scope member binding listed).grow (leads_add _ _ _)

end Sound

namespace Told

theorem sound (told : chronicle.Told) : chronicle.Sound := by
  induction told with
  | fresh => exact .fresh
  | next _ allowed ih => exact ih.next allowed

theorem wellScoped (told : chronicle.Told) : chronicle.machine.WellScoped :=
  told.sound.recorded.wellScoped

/-- What lies where at some moment still lies there at all later ones. -/
theorem keepsLinks (told : later.Told) (leads : chronicle.Leads later) :
    chronicle.machine.KeepsLinks later.machine :=
  (told.before leads).sound.recorded.keepsLinks leads.history told.sound.recorded

/-- A function that is there at some moment is known from then on. -/
theorem knows_shown (told : chronicle.Told) {moment : Moment} (member : moment ∈ chronicle.moments)
    (shown : moment.Shows function) : chronicle.Knows (.function function) := by
  obtain ⟨since, past, same⟩ := List.append_of_mem member
  have leads : Chronicle.Leads ⟨moment, past⟩ chronicle := ⟨since, same.symm⟩
  have there := told.before leads
  refine Knows.grow ?_ leads
  cases shown with
  | declared done => exact ⟨moment, List.mem_cons_self, done⟩
  | bound name scope holds listed => exact there.sound.stored scope holds _ listed
  | found done =>
    generalize reached : Chronicle.mk moment past = chronicle at there
    cases there with
    | fresh =>
      cases reached
      cases done
    | next told allowed =>
      cases reached
      cases done
      exact Knows.grow allowed (leads_add _ _ _)

/-- Whenever a function was there, its scope lies in the one that was current when it was declared. -/
theorem closes (told : chronicle.Told) {moment : Moment} (member : moment ∈ chronicle.moments)
    (shown : moment.Shows function) :
    ∃ declared before, chronicle.Declares function declared before ∧
      chronicle.machine.Closes function before.machine.current := by
  obtain ⟨declared, before, declares⟩ := told.sound.declared function (told.knows_shown member shown)
  exact ⟨declared, before, declares, told.sound.recorded.closes declares.2.2.2⟩

end Told

end Chronicle

end Scriptlet
