import Scriptlet.Proofs.Grammar.Completeness
import Scriptlet.Proofs.Grammar.Writing

/-! Going on where the parser has stopped. What has been read up to an unexpected token can be carried
on: each procedure has a closing, a short list of tokens that it reads from wherever it starts, and a
procedure that stops in one of its parts goes on with that part and then with the closings of the parts
that are left. -/
namespace Scriptlet.Grammar

open Scriptlet.Action Parse Phrase

/-- The parser reads `span`, unless it finds an assignment in it whose target is no name. -/
def Settles (turns : Nat) (action : Parse α) (stops : Token → Prop) (span : List Token) : Prop :=
  ∀ ⦃stream next rest⦄, stream.At turns (span ++ next :: rest) → stops next →
    (∃ value after, action stream = .ok value after ∧ after.At turns (next :: rest)) ∨
      ∃ line after, action stream = .error (.invalidTarget line) after

/-- What the first action does from a place on, told by the second one, which allows for `more` further
tokens. What the first one reads, the second one reads before other tokens as well; and where the first
one finds an unexpected token, the second one can go on after the tokens before it. With `takes`, the
first one does not end well without reading a token. -/
structure ResumesFrom (limit : Nat) (takes : Bool) (first : Parse α) (second : Nat → Parse α)
    (stops : Token → Prop) (stream : Stream) : Prop where
  again : ∀ value after, first stream = .ok value after →
    ∃ span, stream.remaining = span ++ after.remaining ∧ (takes → span ≠ []) ∧
      ∀ more, Reads (limit + more) (second more) (fun next => stops next ∨ next = after.current)
        span value
  carried : ∀ wanted found message reached,
    first stream = .error (.expected wanted found message) reached → found = reached.current ∧
      ∃ span finish, stream.remaining = span ++ reached.remaining ∧ Written finish ∧
        ∀ more, Settles (limit + more) (second more) stops (span ++ finish)

/-- The first action can be carried on by the second one from every place with at most `room` tokens,
and the second one reads `closing`. -/
structure Resumes (limit room : Nat) (takes : Bool) (closing : List Token) (first : Parse α)
    (second : Nat → Parse α) (stops : Token → Prop) : Prop where
  settles : ∀ more, Settles (limit + more) (second more) stops closing
  written : Written closing
  start : ∀ stream : Stream, stream.Terminated → stream.remaining.length ≤ room →
    ResumesFrom limit takes first second stops stream

/-- The next token is of a known kind. -/
def Ends (kind : Kind) (next : Token) : Prop :=
  next.kind = kind

theorem Ends.fixed (kind : Kind) : Ends kind (fixed kind) := rfl

theorem Ends.free {kinds : List Kind} (ends : Ends kind next) (other : kind ∉ kinds) : next.kind ∉ kinds :=
  fun listed => other (ends ▸ listed)

theorem exists_head (span : List Token) (next : Token) (rest : List Token) :
    ∃ tail, span ++ next :: rest = span.headD next :: tail := by
  cases span <;> exact ⟨_, rfl⟩

section

variable {turns : Nat} {stops middle : Token → Prop} {span more : List Token}

theorem Reads.settles {action : Parse α} {value : α} (reads : Reads turns action stops span value) :
    Settles turns action stops span := by
  intro stream next rest place next_stops
  obtain ⟨after, success, place⟩ := reads place next_stops
  exact .inl ⟨value, after, success, place⟩

/-- The first of two actions is read as it was before. -/
theorem Reads.bind_settles {action : Parse α} {rest : α → Parse β} {value : α}
    (reads : Reads turns action middle span value) (settles : Settles turns (rest value) stops more)
    (leads : ∀ next, stops next → middle (more.headD next)) :
    Settles turns (action >>= rest) stops (span ++ more) := by
  intro stream next others place next_stops
  obtain ⟨tail, shape⟩ := exists_head more next others
  rw [List.append_assoc] at place
  obtain ⟨after, success, place⟩ := reads (shape ▸ place) (leads next next_stops)
  rw [bind_of_ok _ success]
  exact settles (shape ▸ place) next_stops

theorem Reads.bind {action : Parse α} {rest : α → Parse β} {value : α} {result : β}
    (reads : Reads turns action middle span value) (further : Reads turns (rest value) stops more result)
    (leads : ∀ next, stops next → middle (more.headD next)) :
    Reads turns (action >>= rest) stops (span ++ more) result := by
  intro stream next others place next_stops
  obtain ⟨tail, shape⟩ := exists_head more next others
  rw [List.append_assoc] at place
  obtain ⟨after, success, place⟩ := reads (shape ▸ place) (leads next next_stops)
  rw [bind_of_ok _ success]
  exact further (shape ▸ place) next_stops

theorem Settles.bind {action : Parse α} {rest : α → Parse β} (begins : Settles turns action middle span)
    (settles : ∀ value, Settles turns (rest value) stops more)
    (leads : ∀ next, stops next → middle (more.headD next)) :
    Settles turns (action >>= rest) stops (span ++ more) := by
  intro stream next others place next_stops
  obtain ⟨tail, shape⟩ := exists_head more next others
  rw [List.append_assoc] at place
  rcases begins (shape ▸ place) (leads next next_stops) with ⟨value, after, success, place⟩ | failed
  · rw [bind_of_ok _ success]
    exact settles value (shape ▸ place) next_stops
  · obtain ⟨line, after, failed⟩ := failed
    exact .inr ⟨line, after, by rw [bind_run, failed]⟩

theorem Settles.pure {value : α} : Settles turns (pure value) stops [] :=
  fun _ _ _ place _ => .inl ⟨value, _, rfl, place⟩

/-- A token that is not there is passed over. -/
theorem Settles.absent {kinds : List Kind} {rest : Option Token → Parse α}
    (settles : Settles turns (rest none) stops span)
    (free : ∀ next, stops next → (span.headD next).kind ∉ kinds) :
    Settles turns (accept kinds >>= rest) stops span := by
  intro stream next others place next_stops
  obtain ⟨tail, shape⟩ := exists_head span next others
  rw [bind_of_ok _ (accept_at_none kinds (shape ▸ place) (free next next_stops))]
  exact settles place next_stops

/-- Something that is left out where the token after it comes at once. -/
theorem Settles.unless {kind : Kind} {rest : Bool → Parse α}
    (stopped : ∀ next, stops next → Ends kind next) (yes : Settles turns (rest true) stops []) :
    Settles turns (check kind >>= rest) stops [] := by
  intro stream next others place next_stops
  have here : stream.current = next := Stream.current_of_remaining place.1
  rw [bind_of_ok _ (check_run kind stream), here, stopped next next_stops, decide_eq_true rfl]
  exact yes place next_stops

end

section

variable {limit room less : Nat} {takes takes' : Bool} {closing further : List Token}
variable {stops middle : Token → Prop} {stream : Stream}

/-- One action after the other: if the second one stops at its first token already, it is carried on
by its closing. -/
theorem ResumesFrom.bind {first : Parse α} {second : Nat → Parse α} {rest : α → Parse β}
    {rest' : Nat → α → Parse β} (begins : ResumesFrom limit takes first second middle stream)
    (terminated : stream.Terminated)
    (settles : ∀ value more, Settles (limit + more) (rest' more value) stops further)
    (written : Written further)
    (goes : ∀ value after, first stream = .ok value after → after.Terminated →
      after.remaining.length + takes.toNat ≤ stream.remaining.length →
      ResumesFrom limit takes' (rest value) (fun more => rest' more value) stops after)
    (leads : ∀ next, stops next → middle (further.headD next)) (sees : takes' ∨ further = []) :
    ResumesFrom limit (takes || takes') (first >>= rest) (fun more => second more >>= rest' more) stops
      stream := by
  cases outcome : first stream with
  | error error reached =>
    have run : (first >>= rest) stream = .error error reached := by rw [bind_run, outcome]
    refine ⟨fun value after success => ?_, fun wanted found message place failed => ?_⟩
    · rw [run] at success
      cases success
    · rw [run] at failed
      cases failed
      obtain ⟨same, span, finish, split, spelled, settled⟩ := begins.carried _ _ _ _ outcome
      refine ⟨same, span, finish ++ further, split, spelled.append written, fun more => ?_⟩
      rw [← List.append_assoc]
      exact (settled more).bind (fun value => settles value more) leads
  | ok value after =>
    have run : (first >>= rest) stream = rest value after := bind_of_ok rest outcome
    obtain ⟨span, split, some, reads⟩ := begins.again value after outcome
    have shorter : after.remaining.length + takes.toNat ≤ stream.remaining.length := by
      rw [split, List.length_append, Nat.add_comm]
      cases takes with
      | false => exact Nat.add_le_add_right (Nat.zero_le _) _
      | true => exact Nat.add_le_add_right (List.length_pos_iff.mpr (some rfl)) _
    have later := goes value after outcome (terminated.of_suffix split) shorter
    refine ⟨fun result last success => ?_, fun wanted found message reached failed => ?_⟩
    · rw [run] at success
      obtain ⟨more, went, someMore, readsMore⟩ := later.again result last success
      refine ⟨span ++ more, by rw [split, went, List.append_assoc], fun taken => ?_, fun turns => ?_⟩
      · rcases Bool.or_eq_true_iff.mp taken with here | there
        · simp [some here]
        · simp [someMore there]
      · refine (reads turns).bind (readsMore turns) fun next ends => ?_
        cases more with
        | cons token more => exact .inr (Stream.current_of_remaining went).symm
        | nil =>
          rcases ends with next_stops | rfl
          · have empty : further = [] := sees.resolve_left fun taken => someMore taken rfl
            exact .inl (by simpa [empty] using leads next next_stops)
          · exact .inr (Stream.current_of_remaining went).symm
    · rw [run] at failed
      obtain ⟨same, more, finish, went, spelled, settled⟩ := later.carried _ _ _ _ failed
      cases more with
      | nil =>
        refine ⟨same, span, further, by rw [split, went, List.nil_append], written, fun turns => ?_⟩
        exact (reads turns).bind_settles (settles value turns) fun next ends => .inl (leads next ends)
      | cons token more =>
        refine ⟨same, span ++ token :: more, finish, by rw [split, went, List.append_assoc], spelled,
          fun turns => ?_⟩
        rw [List.append_assoc]
        refine (reads turns).bind_settles (settled turns) fun next _ => .inr ?_
        exact (Stream.current_of_remaining went).symm

theorem Resumes.bind [Nonempty α] {first : Parse α} {second : Nat → Parse α} {rest : α → Parse β}
    {rest' : Nat → α → Parse β} (begins : Resumes limit room takes closing first second middle)
    (goes : ∀ value, Resumes limit less takes' further (rest value) (fun more => rest' more value) stops)
    (leads : ∀ next, stops next → middle (further.headD next)) (sees : takes' ∨ further = [])
    (fits : room ≤ less + takes.toNat) :
    Resumes limit room (takes || takes') (closing ++ further) (first >>= rest)
      (fun more => second more >>= rest' more) stops where
  settles more := (begins.settles more).bind (fun value => (goes value).settles more) leads
  written := by
    obtain ⟨value⟩ := ‹Nonempty α›
    exact begins.written.append (goes value).written
  start stream terminated roomy := by
    obtain ⟨some⟩ := ‹Nonempty α›
    refine (begins.start stream terminated roomy).bind terminated
      (fun value => (goes value).settles) (goes some).written (fun value after _ ended shorter => ?_)
      leads sees
    exact (goes value).start after ended (by omega)

theorem Resumes.mono {first : Parse α} {second : Nat → Parse α}
    (resumes : Resumes limit room takes closing first second stops) (fits : less ≤ room) :
    Resumes limit less takes closing first second stops :=
  { resumes with
    start := fun stream terminated roomy =>
      resumes.start stream terminated (Nat.le_trans roomy fits) }

theorem Resumes.pure {value : α} :
    Resumes limit room false [] (pure value) (fun _ => pure value) stops where
  settles _ := .pure
  written := .nil
  start stream _ _ := by
    refine ⟨fun result after success => ?_, fun _ _ _ _ failed => by cases failed⟩
    cases success
    exact ⟨[], rfl, by simp, fun more _ _ _ place _ => ⟨_, rfl, place⟩⟩

theorem ResumesFrom.weaken {first : Parse α} {second : Nat → Parse α}
    (resumes : ResumesFrom limit takes first second stops stream) (taking : takes' → takes) :
    ResumesFrom limit takes' first second stops stream where
  again value after success := by
    obtain ⟨span, split, nonempty, reads⟩ := resumes.again value after success
    exact ⟨span, split, fun taken => nonempty (taking taken), reads⟩
  carried := resumes.carried

/-- Where no token can be left there is nothing to be carried on. -/
theorem Resumes.stopped {value : α} {second : Nat → Parse α}
    (settles : ∀ more, Settles (limit + more) (second more) stops []) :
    Resumes limit 0 takes [] (Pure.pure value) second stops where
  settles := settles
  written := .nil
  start _ _ roomy := absurd roomy (Nat.not_succ_le_zero _)

/-- A loop that has no turns left. With more of them, it stops at once where it may stop. -/
theorem Resumes.spent {value : α} (loop : Nat → Nat → Parse α)
    (none : ∀ more, Settles (limit + more) (loop more 0) stops [])
    (some : ∀ more turns, Settles (limit + more) (loop more (turns + 1)) stops []) :
    Resumes limit 0 takes [] (Pure.pure value) (fun more => loop more (0 + more)) stops := by
  refine .stopped fun more => ?_
  cases 0 + more with
  | zero => exact none more
  | succ turns => exact some more turns

/-- An error that is not about an unexpected token is not carried on. -/
theorem ResumesFrom.failed {first : Parse α} {second : Nat → Parse α}
    (outcome : first stream = .error error reached)
    (other : ∀ wanted found message, error ≠ .expected wanted found message) :
    ResumesFrom limit takes first second stops stream := by
  refine ⟨fun _ _ success => ?_, fun wanted found message _ failed => ?_⟩
  · rw [outcome] at success
    cases success
  · rw [outcome] at failed
    cases failed
    exact absurd rfl (other _ _ _)

/-- Where the current token decides what is done. The second action decides in the same way, as long as
it starts at the same token or the first one takes none. -/
theorem ResumesFrom.decided {first inner : Parse α} {second inner' : Nat → Parse α}
    (chosen : ResumesFrom limit takes inner inner' stops stream)
    (same : first stream = inner stream)
    (again : ∀ more (twin : Stream), twin.current = stream.current → second more twin = inner' more twin)
    (ends : takes ∨
      ∀ more (twin : Stream), stops twin.current → second more twin = inner' more twin)
    (settles : ∀ more, Settles (limit + more) (second more) stops closing) (written : Written closing) :
    ResumesFrom limit takes first second stops stream := by
  refine ⟨fun value after success => ?_, fun wanted found message reached failed => ?_⟩
  · rw [same] at success
    obtain ⟨span, split, some, reads⟩ := chosen.again value after success
    refine ⟨span, split, some, fun more twin next rest place ends' => ?_⟩
    have twice : second more twin = inner' more twin := by
      have here := place.1
      cases span with
      | cons token span =>
        exact again more twin (Stream.current_of_remaining here |>.trans
          (Stream.current_of_remaining split).symm)
      | nil =>
        have current : twin.current = next := Stream.current_of_remaining here
        rcases ends' with next_stops | rfl
        · have free := ends.resolve_left fun taken => some taken rfl
          exact free more twin (current ▸ next_stops)
        · exact again more twin (current.trans (Stream.current_of_remaining split).symm)
    rw [twice]
    exact reads more place ends'
  · rw [same] at failed
    obtain ⟨sameToken, span, finish, split, spelled, settled⟩ := chosen.carried _ _ _ _ failed
    cases span with
    | nil => exact ⟨sameToken, [], closing, split, written, settles⟩
    | cons token span =>
      refine ⟨sameToken, token :: span, finish, split, spelled, fun more twin next rest place ends' => ?_⟩
      have current : twin.current = stream.current :=
        (Stream.current_of_remaining place.1).trans (Stream.current_of_remaining split).symm
      rw [again more twin current]
      exact settled more place ends'

/-- One token of a known kind. -/
theorem Resumes.expect {kind : Kind} {token : Token} (same : token.kind = kind)
    (real : kind ≠ .endOfInput) (written : Written [token]) (message : String) :
    Resumes limit room true [token] (expect kind message) (fun _ => Parse.expect kind message) stops where
  settles more stream next rest place _ := by
    obtain ⟨after, success, place⟩ := expect_at place (by simp) same real
    exact .inl ⟨token, after, success message, place⟩
  written := written
  start stream terminated _ := by
    refine ⟨fun found after success => ?_, fun wanted found text reached failed => ?_⟩
    · obtain ⟨isKind, consumes⟩ := expect_consumes terminated success real
      refine ⟨[found], consumes.remaining, by simp, fun more twin next rest place _ => ?_⟩
      obtain ⟨last, again, place⟩ := expect_at place (by simp) isKind real
      exact ⟨last, again message, place⟩
    · rw [expect_run] at failed
      split at failed
      · cases failed
      · cases failed
        refine ⟨rfl, [], [token], rfl, written, fun more twin next rest place _ => ?_⟩
        obtain ⟨last, again, place⟩ := expect_at place (by simp) same real
        exact .inl ⟨token, last, again message, place⟩

/-- A token that is always written the same way. -/
theorem Resumes.mark {kind : Kind} (isFixed : kind.isFixed) (message : String) :
    Resumes limit room true [fixed kind] (Parse.expect kind message)
      (fun _ => Parse.expect kind message) stops := by
  refine .expect rfl ?_ (.symbol isFixed .nil) message
  rintro rfl
  cases isFixed

def someName : Token :=
  named "x"

theorem someName_written : Written [someName] :=
  .name (by decide +kernel) .nil

theorem Resumes.name (message : String) :
    Resumes limit room true [someName] (Parse.expect .identifier message)
      (fun _ => Parse.expect .identifier message) stops :=
  .expect rfl (by decide) someName_written message

theorem advance_resumes (terminated : stream.Terminated) (real : stream.current.kind ≠ .endOfInput) :
    ResumesFrom limit true advance (fun _ => advance) stops stream := by
  refine ⟨fun token after success => ?_, fun _ _ _ _ failed => by cases failed⟩
  cases success
  refine ⟨[stream.current], (terminated.consumes real).remaining, by simp, ?_⟩
  intro more twin next rest place _
  have here : twin.current = stream.current := Stream.current_of_remaining place.1
  refine ⟨twin.next, ?_, place.next (by simp) real⟩
  rw [advance_run, here]

/-- What is done after the current token, which is known not to be the end. -/
theorem ResumesFrom.afterCurrent {rest : Token → Parse α} {rest' : Nat → Token → Parse α}
    (terminated : stream.Terminated) (real : stream.current.kind ≠ .endOfInput)
    (roomy : stream.remaining.length ≤ room)
    (goes : ∀ token, Resumes limit less takes closing (rest token) (fun more => rest' more token) stops)
    (sees : takes ∨ closing = []) (fits : room ≤ less + 1) :
    ResumesFrom limit true (advance >>= rest) (fun more => advance >>= rest' more) stops stream := by
  have begins : ResumesFrom limit true advance (fun _ => advance) (fun _ => True) stream :=
    advance_resumes terminated real
  refine begins.bind terminated (fun token => (goes token).settles) (goes stream.current).written ?_
    (fun _ _ => trivial) sees
  intro token after _ ended shorter
  refine (goes token).start after ended ?_
  have taken : true.toNat = 1 := rfl
  omega

/-- A token that may or may not be there. -/
theorem Resumes.accept {kinds : List Kind} {rest : Option Token → Parse α}
    {rest' : Nat → Option Token → Parse α} (real : Kind.endOfInput ∉ kinds)
    (present : ∀ token, Resumes limit less takes' further (rest (some token))
      (fun more => rest' more (some token)) stops)
    (absent : Resumes limit room takes closing (rest none) (fun more => rest' more none) stops)
    (free : ∀ next, stops next → (closing.headD next).kind ∉ kinds)
    (sees : takes ∨ closing = []) (seesPresent : takes' ∨ further = []) (fits : room ≤ less + 1) :
    Resumes limit room takes closing (Parse.accept kinds >>= rest)
      (fun more => Parse.accept kinds >>= rest' more) stops := by
  have settles : ∀ more, Settles (limit + more) (Parse.accept kinds >>= rest' more) stops closing :=
    fun more => (absent.settles more).absent free
  refine ⟨settles, absent.written, fun stream terminated roomy => ?_⟩
  by_cases listed : stream.current.kind ∈ kinds
  · have notEnd : stream.current.kind ≠ .endOfInput := fun ended => real (ended ▸ listed)
    have chosen : ResumesFrom limit true (advance >>= fun token => rest (some token))
        (fun more => advance >>= fun token => rest' more (some token)) stops stream :=
      .afterCurrent terminated notEnd roomy present seesPresent fits
    have accepted : ∀ {β} (twin : Stream) (next : Option Token → Parse β),
        twin.current = stream.current →
        (Parse.accept kinds >>= next) twin = (advance >>= fun token => next (some token)) twin := by
      intro β twin next current
      have took : Parse.accept kinds twin = .ok (some twin.current) twin.next := by
        rw [accept_run, current, if_pos listed]
      rw [bind_of_ok _ took, bind_of_ok _ (advance_run twin)]
    exact (chosen.decided (accepted stream rest rfl) (fun more twin => accepted twin _) (.inl rfl)
      settles absent.written).weaken fun _ => rfl
  · have passed : ∀ {β} (twin : Stream) (next : Option Token → Parse β), twin.current.kind ∉ kinds →
        (Parse.accept kinds >>= next) twin = next none twin := by
      intro β twin next unlisted
      have none : Parse.accept kinds twin = .ok none twin := by rw [accept_run, if_neg unlisted]
      rw [bind_of_ok _ none]
    refine (absent.start stream terminated roomy).decided (passed stream rest listed)
      (fun more twin current => passed twin _ (current ▸ listed)) ?_ settles absent.written
    refine sees.imp_right fun empty more twin next_stops => passed twin _ ?_
    simpa [empty] using free twin.current next_stops

/-- Something that is left out where the token after it comes at once. -/
theorem Resumes.unless {kind : Kind} {rest : Bool → Parse α} {rest' : Nat → Bool → Parse α}
    (stopped : ∀ next, stops next → Ends kind next)
    (yes : Resumes limit room false [] (rest true) (fun more => rest' more true) stops)
    (no : Resumes limit room true further (rest false) (fun more => rest' more false) stops) :
    Resumes limit room false [] (check kind >>= rest) (fun more => check kind >>= rest' more) stops := by
  have decides : ∀ {β} (twin : Stream) (next : Bool → Parse β),
      (check kind >>= next) twin = next (decide (twin.current.kind = kind)) twin :=
    fun twin next => bind_of_ok next (check_run kind twin)
  have settles : ∀ more, Settles (limit + more) (check kind >>= rest' more) stops [] :=
    fun more => .unless stopped (yes.settles more)
  refine ⟨settles, .nil, fun stream terminated roomy => ?_⟩
  by_cases isKind : stream.current.kind = kind
  · refine (yes.start stream terminated roomy).decided (by rw [decides, decide_eq_true isKind])
      (fun more twin current => ?_) (.inr fun more twin next_stops => ?_) settles .nil
    · rw [decides, current, decide_eq_true isKind]
    · rw [decides, stopped _ next_stops, decide_eq_true rfl]
  · refine ((no.start stream terminated roomy).decided (by rw [decides, decide_eq_false isKind])
      (fun more twin current => ?_) (.inl rfl) settles .nil).weaken (by simp)
    rw [decides, current, decide_eq_false isKind]

/-- Two ways to go on, each of which takes a token. -/
theorem Resumes.branch {kind : Kind} {rest : Bool → Parse α} {rest' : Nat → Bool → Parse α}
    (yes : Resumes limit room true further (rest true) (fun more => rest' more true) stops)
    (no : Resumes limit room true closing (rest false) (fun more => rest' more false) stops)
    (free : ∀ next, stops next → (closing.headD next).kind ≠ kind) :
    Resumes limit room true closing (check kind >>= rest) (fun more => check kind >>= rest' more)
      stops := by
  have decides : ∀ {β} (twin : Stream) (next : Bool → Parse β),
      (check kind >>= next) twin = next (decide (twin.current.kind = kind)) twin :=
    fun twin next => bind_of_ok next (check_run kind twin)
  have settles : ∀ more, Settles (limit + more) (check kind >>= rest' more) stops closing := by
    intro more stream next others place next_stops
    obtain ⟨tail, shape⟩ := exists_head closing next others
    have here : stream.current = closing.headD next := Stream.current_of_remaining (shape ▸ place.1)
    rw [decides, here, decide_eq_false (free next next_stops)]
    exact no.settles more place next_stops
  refine ⟨settles, no.written, fun stream terminated roomy => ?_⟩
  by_cases isKind : stream.current.kind = kind
  · refine (yes.start stream terminated roomy).decided (by rw [decides, decide_eq_true isKind])
      (fun more twin current => ?_) (.inl rfl) settles no.written
    rw [decides, current, decide_eq_true isKind]
  · refine (no.start stream terminated roomy).decided (by rw [decides, decide_eq_false isKind])
      (fun more twin current => ?_) (.inl rfl) settles no.written
    rw [decides, current, decide_eq_false isKind]

theorem Resumes.narrow {fewer : Token → Prop} {first : Parse α} {second : Nat → Parse α}
    (resumes : Resumes limit room takes closing first second stops)
    (implies : ∀ next, fewer next → stops next) :
    Resumes limit room takes closing first second fewer where
  settles more _ _ _ place ends := resumes.settles more place (implies _ ends)
  written := resumes.written
  start stream terminated roomy := by
    have resumes := resumes.start stream terminated roomy
    refine ⟨fun value after success => ?_, fun wanted found message reached failed => ?_⟩
    · obtain ⟨span, split, nonempty, reads⟩ := resumes.again value after success
      exact ⟨span, split, nonempty, fun more => (reads more).weaken fun next => .imp_left (implies next)⟩
    · obtain ⟨same, span, finish, split, written, settled⟩ := resumes.carried _ _ _ _ failed
      exact ⟨same, span, finish, split, written, fun more _ _ _ place ends =>
        settled more place (implies _ ends)⟩

/-- Another closing does as well. -/
theorem Resumes.close {first : Parse α} {second : Nat → Parse α}
    (resumes : ∃ closing, Resumes limit room takes closing first second stops)
    (settles : ∀ more, Settles (limit + more) (second more) stops closing) (written : Written closing) :
    Resumes limit room takes closing first second stops := by
  obtain ⟨_, resumes⟩ := resumes
  exact ⟨settles, written, resumes.start⟩

theorem Resumes.wrongTarget (line : Int) :
    Resumes limit room false [] (throw (.invalidTarget line) : Parse α)
      (fun _ => throw (.invalidTarget line)) stops where
  settles _ _ _ _ _ _ := .inr ⟨line, _, rfl⟩
  written := .nil
  start _ _ _ := .failed rfl (by simp)

/-- A first part that takes a token, whatever comes next. -/
theorem Resumes.after [Nonempty α] {first : Parse α} {second : Nat → Parse α} {rest : α → Parse β}
    {rest' : Nat → α → Parse β} (sees : takes ∨ further = [])
    (begins : Resumes limit room true closing first second fun _ => True)
    (goes : ∀ value, Resumes limit room takes further (rest value) (fun more => rest' more value) stops) :
    Resumes limit room true (closing ++ further) (first >>= rest)
      (fun more => second more >>= rest' more) stops :=
  begins.bind goes (fun _ _ => trivial) sees (Nat.le_succ room)

/-- A first part, and after it nothing that must be there. -/
theorem Resumes.last [Nonempty α] {first : Parse α} {second : Nat → Parse α} {rest : α → Parse β}
    {rest' : Nat → α → Parse β} (leads : ∀ next, stops next → middle next)
    (begins : Resumes limit room takes closing first second middle)
    (goes : ∀ value, Resumes limit less false [] (rest value) (fun more => rest' more value) stops)
    (fits : room ≤ less + takes.toNat) :
    Resumes limit room takes closing (first >>= rest) (fun more => second more >>= rest' more) stops := by
  have whole := begins.bind goes leads (.inr rfl) fits
  rwa [Bool.or_false, List.append_nil] at whole

/-- A first part and the mark that ends it. -/
theorem Resumes.upTo [Nonempty α] {kind : Kind} {message : String} {first : Parse α}
    {second : Nat → Parse α} {rest : α → Token → Parse β} {rest' : Nat → α → Token → Parse β}
    (sees : takes' ∨ further = []) (isFixed : kind.isFixed) (ends : middle (fixed kind))
    (begins : Resumes limit room takes closing first second middle)
    (goes : ∀ value token, Resumes limit room takes' further (rest value token)
      (fun more => rest' more value token) stops) :
    Resumes limit room true (closing ++ ([fixed kind] ++ further))
      (first >>= fun value => Parse.expect kind message >>= rest value)
      (fun more => second more >>= fun value => Parse.expect kind message >>= rest' more value)
      stops := by
  have whole := begins.bind (fun value => .after sees (.mark isFixed message) (goes value))
    (fun _ _ => ends) (.inl rfl) (Nat.le_add_right room _)
  rwa [Bool.or_true] at whole

end

end Scriptlet.Grammar
