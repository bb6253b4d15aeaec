import Scriptlet.Proofs.Action
import Scriptlet.Proofs.Node.Lines
import Scriptlet.Proofs.Parsing.Stream

/-! The parser looks no further than one token ahead. Of two texts that start with the same tokens it
reads these in the same way, whatever comes after them and on whatever lines they stand; and where a
phrase ends with a token of its own, not even the next token matters. -/
namespace Scriptlet

open Scriptlet.Action Parse

/-- Two texts that start with the same tokens, on lines that `change` relates. After these, one goes on
with `rest` and the other one, which has room for `more` further tokens, with `other`. -/
structure Fork where
  change : Int → Int
  rest : List Token
  other : List Token
  more : Nat

/-- Between two places that both lie before the same tokens there are only tokens before these. -/
theorem Stream.split_between {stream middle last : Stream} {read more span left tail : List Token}
    (split : stream.remaining = span ++ tail) (began : stream.remaining = read ++ middle.remaining)
    (went : middle.remaining = more ++ last.remaining) (ended : last.remaining = left ++ tail) :
    middle.remaining = more ++ left ++ tail ∧ span = read ++ (more ++ left) := by
  have here : middle.remaining = more ++ left ++ tail := by rw [went, ended, List.append_assoc]
  have whole : span ++ tail = (read ++ (more ++ left)) ++ tail := by
    rw [← split, began, here]
    simp only [List.append_assoc]
  exact ⟨here, List.append_cancel_right whole⟩

namespace Fork

/-- The second of two streams is where the first one is, with `span` ahead of both. -/
def There (fork : Fork) (span : List Token) (twin : Stream) : Prop :=
  twin.remaining = span.map (·.mapLine fork.change) ++ fork.other ∧ twin.Terminated

/-- The second of two outcomes is that of the first one, with `span` left ahead of both. -/
def Twins (fork : Fork) (convert : α → β) (span : List Token) :
    EStateM.Result ParseError Stream α → EStateM.Result ParseError Stream β → Prop
  | .ok value _, .ok value' after => value' = convert value ∧ fork.There span after
  | .error error _, .error error' after => error' = error.mapLine fork.change ∧ fork.There span after
  | _, _ => False

def succeeded : EStateM.Result ParseError Stream α → Bool
  | .ok .. => true
  | .error .. => false

/-- The second text does not go on with an `else`, which a complete statement might take in. -/
def Free (fork : Fork) : Prop :=
  ∀ next ∈ fork.other.head?, next.kind ≠ .elseWord

/-- The first action never goes back, and with `takes` it does not end well without reading a token.
As long as it stays within the common tokens, of which there are at most `room`, the second action
does the same; with `peeks`, the last of these tokens must be left. -/
structure CopiesFrom (fork : Fork) (peeks takes : Bool) (room : Nat) (convert : α → β)
    (first : Parse α) (second : Parse β) (stream : Stream) : Prop where
  onward : ∃ read, stream.remaining = read ++ (final (first stream)).remaining ∧
    (final (first stream)).pos = stream.pos + read.length ∧
    (takes → succeeded (first stream) → read ≠ [])
  copy : ∀ span left twin, stream.remaining = span ++ fork.rest → span.length ≤ room →
    fork.There span twin → (final (first stream)).remaining = left ++ fork.rest →
    (left ≠ [] ∨ peeks = false ∧ fork.Free ∧ succeeded (first stream)) →
    fork.Twins convert left (first stream) (second twin)

def Copies (fork : Fork) (peeks takes : Bool) (room : Nat) (convert : α → β) (first : Parse α)
    (second : Parse β) : Prop :=
  ∀ stream : Stream, stream.Terminated →
    fork.CopiesFrom peeks takes room convert first second stream

variable {fork : Fork} {peeks takes peeks' takes' : Bool} {room : Nat} {convert : α → β}
variable {convert' : γ → δ} {stream : Stream}

theorem CopiesFrom.weaken {first : Parse α} {second : Parse β}
    (copies : fork.CopiesFrom peeks takes room convert first second stream)
    (peeking : peeks → peeks') (taking : takes' → takes) :
    fork.CopiesFrom peeks' takes' room convert first second stream where
  onward := by
    obtain ⟨read, split, counted, some⟩ := copies.onward
    exact ⟨read, split, counted, fun takes => some (taking takes)⟩
  copy := by
    intro span left twin split fits there ended free
    refine copies.copy span left twin split fits there ended
      (free.imp_right fun closed => ⟨?_, closed.2⟩)
    exact Bool.eq_false_iff.mpr fun peeks => Bool.eq_false_iff.mp closed.1 (peeking peeks)

theorem Copies.weaken {first : Parse α} {second : Parse β}
    (copies : fork.Copies peeks takes room convert first second)
    (peeking : peeks → peeks') (taking : takes' → takes) :
    fork.Copies peeks' takes' room convert first second :=
  fun stream terminated => (copies stream terminated).weaken peeking taking

/-- Nothing is asked but that the second action does the same. -/
theorem Copies.relaxed {first : Parse α} {second : Parse β}
    (copies : fork.Copies peeks takes room convert first second) :
    fork.Copies true false room convert first second :=
  copies.weaken (by simp) (by simp)

/-- One action after the other. The second one takes a token, or leaves the last common one, if the
first one looks at the token after its own; and what the first one takes leaves less room. -/
theorem CopiesFrom.bind {first : Parse α} {second : Parse β} {rest : α → Parse γ} {rest' : β → Parse δ}
    (begins : fork.CopiesFrom peeks takes room convert first second stream)
    (terminated : stream.Terminated)
    (goes : ∀ value after, first stream = .ok value after → after.Terminated →
      fork.CopiesFrom peeks' takes' room' convert' (rest value) (rest' (convert value)) after)
    (sees : peeks → peeks' ∨ takes') (fits : room ≤ room' ∨ takes ∧ room ≤ room' + 1) :
    fork.CopiesFrom peeks' (takes || takes') room convert' (first >>= rest) (second >>= rest')
      stream := by
  obtain ⟨read, began, counted, some⟩ := begins.onward
  have copy := begins.copy
  cases outcome : first stream with
  | error error middle =>
    rw [outcome] at began counted copy
    have run : (first >>= rest) stream = .error error middle := by rw [bind_run, outcome]
    refine ⟨⟨read, by rwa [run], by rwa [run], by rw [run]; simp [succeeded]⟩, ?_⟩
    intro span left twin split roomy there ended free
    rw [run] at ended free ⊢
    have kept : left ≠ [] := by simpa [succeeded] using free
    have twins := copy span left twin split roomy there ended (.inl kept)
    rw [bind_run]
    generalize second twin = reached at twins
    cases reached with
    | ok => exact absurd twins id
    | error => exact twins
  | ok value middle =>
    rw [outcome] at began counted some copy
    have run : (first >>= rest) stream = rest value middle := bind_of_ok rest outcome
    have later := goes value middle outcome (terminated.of_suffix began)
    obtain ⟨more, went, further, someMore⟩ := later.onward
    refine ⟨⟨read ++ more, ?_, ?_, ?_⟩, ?_⟩
    · have started : stream.remaining = read ++ middle.remaining := began
      rw [run, started, went, List.append_assoc]
    · have started : middle.pos = stream.pos + read.length := counted
      rw [run, further, started, List.length_append, Nat.add_assoc]
    · intro taken ended
      rw [run] at ended
      rcases Bool.or_eq_true_iff.mp taken with here | there
      · simp [some here rfl]
      · simp [someMore there ended]
    · intro span left twin split roomy there ended free
      rw [run] at ended free ⊢
      obtain ⟨atMiddle, whole⟩ := Stream.split_between split began went ended
      have firstFree : more ++ left ≠ [] ∨ peeks = false ∧ fork.Free ∧ succeeded (.ok value middle) := by
        by_cases nothing : more ++ left = []
        · obtain ⟨none, empty⟩ := List.append_eq_nil_iff.mp nothing
          obtain ⟨closed, isFree, done⟩ := free.resolve_left (not_not_intro empty)
          refine .inr ⟨Bool.eq_false_iff.mpr fun looks => ?_, isFree, rfl⟩
          rcases sees looks with looksOn | taken
          · exact Bool.false_ne_true (closed.symm.trans looksOn)
          · exact someMore taken done none
        · exact .inl nothing
      have twins := copy span (more ++ left) twin split roomy there atMiddle firstFree
      have less : (more ++ left).length ≤ room' := by
        rw [whole, List.length_append] at roomy
        rcases fits with same | ⟨taken, smaller⟩
        · omega
        · have := List.length_pos_iff.mpr (some taken rfl)
          omega
      rw [bind_run]
      generalize second twin = reached at twins
      cases reached with
      | error => exact absurd twins id
      | ok value' arrived =>
        obtain ⟨rfl, there⟩ := twins
        exact later.copy (more ++ left) left arrived atMiddle less there ended free

/-- What follows takes a token, or looks at the next one anyhow. -/
theorem Copies.bind {first : Parse α} {second : Parse β} {rest : α → Parse γ} {rest' : β → Parse δ}
    (begins : fork.Copies peeks takes room convert first second)
    (goes : ∀ value, fork.Copies peeks' takes' room convert' (rest value) (rest' (convert value)))
    (sees : peeks → peeks' ∨ takes') :
    fork.Copies peeks' (takes || takes') room convert' (first >>= rest) (second >>= rest') :=
  fun stream terminated => (begins stream terminated).bind terminated (fun value _ _ => goes value _)
    sees (.inl (Nat.le_refl room))

theorem CopiesFrom.after {first : Parse α} {second : Parse β} {rest : α → Parse γ}
    {rest' : β → Parse δ} (begins : fork.CopiesFrom false true room convert first second stream)
    (terminated : stream.Terminated)
    (goes : ∀ value, fork.Copies peeks' false room' convert' (rest value) (rest' (convert value)))
    (fits : room ≤ room' + 1) :
    fork.CopiesFrom peeks' takes room convert' (first >>= rest) (second >>= rest') stream :=
  (begins.bind terminated (fun value _ _ => goes value _) (by simp) (.inr ⟨rfl, fits⟩)).weaken id
    (by simp)

/-- A first part that ends with a token of its own. -/
theorem Copies.after {first : Parse α} {second : Parse β} {rest : α → Parse γ} {rest' : β → Parse δ}
    (begins : fork.Copies false true room convert first second)
    (goes : ∀ value, fork.Copies peeks' false room convert' (rest value) (rest' (convert value))) :
    fork.Copies peeks' takes room convert' (first >>= rest) (second >>= rest') :=
  fun stream terminated => (begins stream terminated).after terminated goes (Nat.le_succ room)

/-- What comes after a first part that takes a token has less room. -/
theorem Copies.afterRead {first : Parse α} {second : Parse β} {rest : α → Parse γ} {rest' : β → Parse δ}
    (begins : fork.Copies false true (room + 1) convert first second)
    (goes : ∀ value, fork.Copies peeks' false room convert' (rest value) (rest' (convert value))) :
    fork.Copies peeks' takes (room + 1) convert' (first >>= rest) (second >>= rest') :=
  fun stream terminated => (begins stream terminated).after terminated goes (Nat.le_refl _)

/-- A first part and something after it that takes a token. -/
theorem Copies.before {first : Parse α} {second : Parse β} {rest : α → Parse γ} {rest' : β → Parse δ}
    (begins : fork.Copies peeks takes room convert first second)
    (goes : ∀ value, fork.Copies peeks' true room convert' (rest value) (rest' (convert value))) :
    fork.Copies peeks' takes' room convert' (first >>= rest) (second >>= rest') :=
  (begins.bind goes (by simp)).weaken id (by simp)

/-- A first part and something after it that may look at the next token. -/
theorem Copies.around {first : Parse α} {second : Parse β} {rest : α → Parse γ} {rest' : β → Parse δ}
    (begins : fork.Copies peeks takes room convert first second)
    (goes : ∀ value, fork.Copies true false room convert' (rest value) (rest' (convert value))) :
    fork.Copies true takes room convert' (first >>= rest) (second >>= rest') :=
  (begins.bind goes (by simp)).weaken id (by simp)

theorem Copies.mono {first : Parse α} {second : Parse β} {less : Nat}
    (copies : fork.Copies peeks takes room convert first second) (fits : less ≤ room) :
    fork.Copies peeks takes less convert first second :=
  fun stream terminated => { copies stream terminated with
    copy := fun span left twin split roomy =>
      (copies stream terminated).copy span left twin split (Nat.le_trans roomy fits) }

/-- Where there is no room, no common token can be left. -/
theorem Copies.stopped {value : α} {second : Parse β} :
    fork.Copies true false 0 convert (pure value) second := by
  intro stream _
  refine ⟨⟨[], rfl, rfl, by simp⟩, ?_⟩
  intro span left twin split roomy _ ended free
  cases List.append_cancel_right (split.symm.trans ended)
  have empty : span = [] := List.length_eq_zero_iff.mp (Nat.le_zero.mp roomy)
  simp [empty] at free

theorem Copies.pure {value : α} {value' : β} (same : value' = convert value) :
    fork.Copies peeks false room convert (pure value) (pure value') := by
  intro stream _
  refine ⟨⟨[], rfl, rfl, by simp⟩, ?_⟩
  intro span left twin split _ there ended _
  cases List.append_cancel_right (split.symm.trans ended)
  exact ⟨same, there⟩

theorem Copies.throw {error error' : ParseError} (same : error' = error.mapLine fork.change) :
    fork.Copies peeks takes room convert (throw error) (throw error') := by
  intro stream _
  refine ⟨⟨[], rfl, rfl, by simp [throw_run, succeeded]⟩, ?_⟩
  intro span left twin split _ there ended _
  cases List.append_cancel_right (split.symm.trans ended)
  exact ⟨same, there⟩

theorem There.current {token : Token} {span : List Token} {twin : Stream}
    (there : fork.There (token :: span) twin) : twin.current = token.mapLine fork.change :=
  Stream.current_of_remaining there.1

theorem There.next {token : Token} {span : List Token} {twin : Stream}
    (there : fork.There (token :: span) twin) (real : token.kind ≠ .endOfInput) :
    fork.There span twin.next := by
  have more : twin.current.kind ≠ .endOfInput := by
    rw [there.current]
    exact real
  have consumes := there.2.consumes more
  exact ⟨(List.cons.inj (consumes.remaining.symm.trans there.1)).2, consumes.terminated⟩

/-- A stream that has not yet passed the common tokens is at one of them, or after the last one. -/
theorem split_next {span left : List Token} {token : Token} {stream after : Stream}
    (split : stream.remaining = span ++ fork.rest) (consumes : stream.Consumes token after)
    (ended : after.remaining = left ++ fork.rest) : span = token :: left := by
  have whole : span ++ fork.rest = (token :: left) ++ fork.rest := by
    rw [← split, consumes.remaining, ended, List.cons_append]
  exact List.append_cancel_right whole

/-- An action that only looks at the current token. -/
theorem CopiesFrom.look {first : Parse α} {second : Parse β} {value : α}
    (looked : first stream = .ok value stream)
    (again : ∀ span twin, stream.remaining = span ++ fork.rest → fork.There span twin →
      span ≠ [] ∨ peeks = false ∧ fork.Free → second twin = .ok (convert value) twin) :
    fork.CopiesFrom peeks false room convert first second stream := by
  refine ⟨⟨[], by rw [looked]; rfl, by rw [looked]; rfl, by simp⟩, ?_⟩
  intro span left twin split _ there ended free
  rw [looked] at ended ⊢
  cases List.append_cancel_right (split.symm.trans ended)
  rw [again span twin split there (free.imp_right fun closed => ⟨closed.1, closed.2.1⟩)]
  exact ⟨rfl, there⟩

/-- The current token of the second stream, as long as there are common tokens ahead. -/
theorem There.current_of_ne {span : List Token} {twin : Stream} (there : fork.There span twin)
    (split : stream.remaining = span ++ fork.rest) (some : span ≠ []) :
    twin.current = stream.current.mapLine fork.change := by
  obtain ⟨token, more, rfl⟩ := List.exists_cons_of_ne_nil some
  rw [there.current, Stream.current_of_remaining split]

theorem current_copies :
    fork.Copies true false room (·.mapLine fork.change) Parse.current Parse.current :=
  fun stream _ => .look rfl fun span twin split there some => by
    rw [Parse.current_run, there.current_of_ne split (by simpa using some)]

theorem check_copies (kind : Kind) :
    fork.Copies true false room (fun found => found) (Parse.check kind) (Parse.check kind) :=
  fun stream _ => .look rfl fun span twin split there some => by
    rw [Parse.check_run, there.current_of_ne split (by simpa using some)]
    rfl

/-- An action that reads the current token. -/
theorem CopiesFrom.read {first : Parse α} {second : Parse β} (terminated : stream.Terminated)
    (real : stream.current.kind ≠ .endOfInput) (began : first stream = .ok value stream.next)
    (again : ∀ twin : Stream, twin.current = stream.current.mapLine fork.change →
      second twin = .ok (convert value) twin.next) :
    fork.CopiesFrom false true room convert first second stream := by
  have consumes := terminated.consumes real
  have counted : stream.next.pos = stream.pos + 1 := stream.pos_next terminated real
  refine ⟨⟨[stream.current], by rw [began]; exact consumes.remaining, by rw [began]; exact counted,
    by simp⟩, ?_⟩
  intro span left twin split _ there ended _
  rw [began] at ended ⊢
  cases split_next split consumes ended
  rw [again twin there.current]
  exact ⟨rfl, there.next real⟩

theorem advance_copies (terminated : stream.Terminated) (real : stream.current.kind ≠ .endOfInput) :
    fork.CopiesFrom false true room (·.mapLine fork.change) Parse.advance Parse.advance stream :=
  .read terminated real (Parse.advance_run stream) fun twin same => by rw [Parse.advance_run, same]

theorem expect_copies {kind : Kind} (real : kind ≠ .endOfInput) (message : String) :
    fork.Copies false true room (·.mapLine fork.change) (Parse.expect kind message)
      (Parse.expect kind message) := by
  intro stream terminated
  by_cases same : stream.current.kind = kind
  · have expected : Parse.expect kind message stream = .ok stream.current stream.next := by
      rw [Parse.expect_run, if_pos same]
    refine .read terminated (same ▸ real) expected fun twin current => ?_
    rw [Parse.expect_run, current, if_pos (show (stream.current.mapLine _).kind = kind from same)]
  · have failed := Parse.expect_run kind message stream
    rw [if_neg same] at failed
    refine ⟨⟨[], by rw [failed]; rfl, by rw [failed]; rfl, by simp [failed, succeeded]⟩, ?_⟩
    intro span left twin split _ there ended free
    rw [failed] at ended free ⊢
    cases List.append_cancel_right (split.symm.trans ended)
    have current := there.current_of_ne split (by simpa [succeeded] using free)
    rw [Parse.expect_run, current, if_neg (show (stream.current.mapLine _).kind ≠ kind from same)]
    exact ⟨rfl, there⟩

theorem noteFunction_copies (name : String) (arity : Nat) :
    fork.Copies false false room (fun done => done) (Parse.noteFunction name arity)
      (Parse.noteFunction name arity) := by
  intro stream _
  refine ⟨⟨[], rfl, rfl, by simp⟩, ?_⟩
  intro span left twin split _ there ended _
  cases List.append_cancel_right (split.symm.trans ended)
  exact ⟨rfl, there⟩

/-- An accepted token is read. -/
theorem accept_copies {kinds : List Kind} (terminated : stream.Terminated)
    (real : Kind.endOfInput ∉ kinds) (listed : stream.current.kind ∈ kinds) :
    fork.CopiesFrom false true room (Option.map (·.mapLine fork.change)) (Parse.accept kinds)
      (Parse.accept kinds) stream := by
  have accepted : Parse.accept kinds stream = .ok (some stream.current) stream.next := by
    rw [accept_run, if_pos listed]
  refine .read terminated (fun ended => real (ended ▸ listed)) accepted fun twin current => ?_
  rw [accept_run, current, if_pos (show (stream.current.mapLine _).kind ∈ kinds from listed)]
  rfl

/-- A token that is not accepted is only looked at. What comes in its place is not accepted either, unless
it is taken to be looked at as well. -/
theorem refuse_copies {kinds : List Kind} (unlisted : stream.current.kind ∉ kinds)
    (free : peeks ∨ (fork.Free → ∀ next ∈ fork.other.head?, next.kind ∉ kinds)) :
    fork.CopiesFrom peeks false room (Option.map (·.mapLine fork.change)) (Parse.accept kinds)
      (Parse.accept kinds) stream := by
  have refused : Parse.accept kinds stream = .ok none stream := by
    rw [accept_run, if_neg unlisted]
  refine .look refused fun span twin split there kept => ?_
  have passed : twin.current.kind ∉ kinds := by
    by_cases empty : span = []
    · subst empty
      have whole : twin.remaining = fork.other := there.1
      obtain ⟨unseen, isFree⟩ := kept.resolve_left (by simp)
      have free := free.resolve_left (by simp [unseen])
      exact free isFree twin.current (by rw [← whole]; rfl)
    · rw [there.current_of_ne split empty]
      exact unlisted
  rw [accept_run, if_neg passed]
  rfl

/-- A token that is accepted is read, which leaves less room. If none is, what follows takes a token,
or it may look at the next one, or the next one is not accepted either. -/
theorem Copies.accept {kinds : List Kind} {rest : Option Token → Parse γ}
    {rest' : Option Token → Parse δ} (real : Kind.endOfInput ∉ kinds)
    (present : ∀ token, fork.Copies peeks false less convert' (rest (some token))
      (rest' (some (token.mapLine fork.change))))
    (absent : fork.Copies peeks takes room convert' (rest none) (rest' none))
    (free : peeks ∨ takes ∨ (fork.Free → ∀ next ∈ fork.other.head?, next.kind ∉ kinds))
    (fits : room ≤ less + 1) :
    fork.Copies peeks takes room convert' (accept kinds >>= rest) (accept kinds >>= rest') := by
  intro stream terminated
  by_cases listed : stream.current.kind ∈ kinds
  · have goes : ∀ value after, Parse.accept kinds stream = .ok value after → after.Terminated →
        fork.CopiesFrom peeks false less convert' (rest value)
          (rest' (value.map (·.mapLine fork.change))) after := by
      intro value after done
      rw [accept_run, if_pos listed] at done
      cases done
      exact present stream.current _
    have begins : fork.CopiesFrom false true room _ _ _ stream := accept_copies terminated real listed
    exact (begins.bind terminated goes (by simp) (.inr ⟨rfl, fits⟩)).weaken id (by simp)
  · have goes : ∀ value after, Parse.accept kinds stream = .ok value after → after.Terminated →
        fork.CopiesFrom peeks takes room convert' (rest value)
          (rest' (value.map (·.mapLine fork.change))) after := by
      intro value after done
      rw [accept_run, if_neg listed] at done
      cases done
      exact absent _
    have sees : (peeks || takes) → peeks ∨ takes := by simp
    have begins : fork.CopiesFrom (peeks || takes) false room _ _ _ stream :=
      refuse_copies listed (by rwa [Bool.or_eq_true_iff, or_assoc])
    exact (begins.bind terminated goes sees (.inl (Nat.le_refl room))).weaken id (by simp)

/-- A token that may or may not be there, and then something that takes a token. -/
theorem Copies.acceptBefore {kinds : List Kind} {rest : Option Token → Parse γ}
    {rest' : Option Token → Parse δ} (real : Kind.endOfInput ∉ kinds)
    (present : ∀ token, fork.Copies peeks false room convert' (rest (some token))
      (rest' (some (token.mapLine fork.change))))
    (absent : fork.Copies peeks true room convert' (rest none) (rest' none)) :
    fork.Copies peeks takes room convert' (Parse.accept kinds >>= rest)
      (Parse.accept kinds >>= rest') :=
  (Copies.accept real present absent (.inr (.inl rfl)) (Nat.le_succ room)).weaken id (by simp)

end Fork

end Scriptlet
