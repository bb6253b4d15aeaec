import Scriptlet.Parsing.Stream
import Scriptlet.Proofs.Action

/-! What reading a token does to a stream. A stream is seen as the list of its remaining tokens; as
long as the last of them is the end of the input, each token that is read is the head of that list. -/
namespace Scriptlet

namespace Stream

def remaining (stream : Stream) : List Token :=
  stream.current :: stream.ahead

/-- The last remaining token is the end of the input. -/
def Terminated (stream : Stream) : Prop :=
  stream.remaining.getLast?.map Token.kind = some .endOfInput

theorem length_remaining (stream : Stream) : stream.remaining.length = stream.size := rfl

theorem Terminated.of_suffix {stream after : Stream} (terminated : stream.Terminated)
    (split : stream.remaining = span ++ after.remaining) : after.Terminated := by
  have last : stream.remaining.getLast? = after.remaining.getLast? := by
    rw [split, List.getLast?_append]
    simp [remaining, List.getLast?_cons]
  unfold Terminated at terminated ⊢
  rwa [← last]

theorem remaining_next {stream : Stream} (terminated : stream.Terminated)
    (more : stream.current.kind ≠ .endOfInput) :
    stream.remaining = stream.current :: stream.next.remaining := by
  obtain ⟨current, ahead, pos, declared⟩ := stream
  cases ahead with
  | nil => exact absurd (by simpa [Terminated, remaining] using terminated) more
  | cons token rest => simp_all [remaining, next]

theorem pos_next {stream : Stream} (terminated : stream.Terminated)
    (more : stream.current.kind ≠ .endOfInput) : stream.next.pos = stream.pos + 1 := by
  obtain ⟨current, ahead, pos, declared⟩ := stream
  cases ahead with
  | nil => exact absurd (by simpa [Terminated, remaining] using terminated) more
  | cons token rest => simp_all [next]

theorem remaining_next_of_cons {stream : Stream} {token next : Token}
    (split : stream.remaining = token :: next :: rest) (more : token.kind ≠ .endOfInput) :
    stream.next.remaining = next :: rest := by
  obtain ⟨current, ahead, pos, declared⟩ := stream
  simp only [remaining, List.cons.injEq] at split
  obtain ⟨rfl, rfl⟩ := split
  simp [remaining, Stream.next, more]

theorem current_of_remaining {stream : Stream} (split : stream.remaining = token :: rest) :
    stream.current = token :=
  (List.cons.inj split).1

theorem terminate_ended (tokens : List Token) :
    (terminate tokens).getLast?.map Token.kind = some .endOfInput := by
  unfold terminate
  cases last? : tokens.getLast? with
  | none => rfl
  | some last =>
    dsimp only
    split
    · rename_i ended
      rw [last?, Option.map_some, ended]
    · simp

theorem terminate_of_ended {tokens : List Token} (ended : tokens.getLast?.map Token.kind = some .endOfInput) :
    terminate tokens = tokens := by
  obtain ⟨last, last?, isEnd⟩ := Option.map_eq_some_iff.mp ended
  simp [terminate, last?, isEnd]

theorem remaining_terminate (tokens : List Token) : (ofTokens tokens).remaining = terminate tokens := by
  have some : terminate tokens ≠ [] := by
    intro none
    have ended := terminate_ended tokens
    rw [none] at ended
    cases ended
  unfold ofTokens
  obtain ⟨first, ahead, shape⟩ := List.exists_cons_of_ne_nil some
  rw [shape]
  rfl

theorem Terminated.ofTokens (tokens : List Token) : (ofTokens tokens).Terminated := by
  rw [Terminated, remaining_terminate]
  exact terminate_ended tokens

theorem pos_ofTokens (tokens : List Token) : (ofTokens tokens).pos = 0 := by
  unfold ofTokens
  split <;> rfl

/-- The tokens of a list that ends with the end of the input, as a stream. -/
theorem remaining_ofTokens {tokens : List Token} {last : Token}
    (ended : last.kind = .endOfInput) :
    (ofTokens (tokens ++ [last])).remaining = tokens ++ [last] := by
  rw [remaining_terminate, terminate_of_ended (by simp [ended])]

theorem terminated_of_remaining {stream : Stream} {last : Token}
    (split : stream.remaining = before ++ [last]) (ended : last.kind = .endOfInput) :
    stream.Terminated := by
  simp [Terminated, split, ended]

/-- Reading one token, which is not the end of the input. -/
structure Consumes (stream : Stream) (token : Token) (after : Stream) : Prop where
  current : stream.current = token
  remaining : stream.remaining = token :: after.remaining
  terminated : after.Terminated

theorem Terminated.consumes {stream : Stream} (terminated : stream.Terminated)
    (more : stream.current.kind ≠ .endOfInput) :
    stream.Consumes stream.current stream.next := by
  have split : stream.remaining = [stream.current] ++ stream.next.remaining :=
    remaining_next terminated more
  exact ⟨rfl, split, terminated.of_suffix split⟩

/-- The tokens that remain, of which there are at most `turns`. -/
def At (stream : Stream) (turns : Nat) (tokens : List Token) : Prop :=
  stream.remaining = tokens ∧ tokens.length ≤ turns

theorem At.next {stream : Stream} (place : stream.At turns (token :: tail)) (more : tail ≠ [])
    (real : token.kind ≠ .endOfInput) : stream.next.At turns tail := by
  obtain ⟨split, room⟩ := place
  cases tail with
  | nil => exact absurd rfl more
  | cons next rest => exact ⟨remaining_next_of_cons split real, Nat.le_of_succ_le room⟩

end Stream

namespace Parse

open Scriptlet.Action

theorem current_run (stream : Stream) : current stream = .ok stream.current stream := rfl

theorem advance_run (stream : Stream) : advance stream = .ok stream.current stream.next := rfl

theorem check_run (kind : Kind) (stream : Stream) :
    check kind stream = .ok (decide (stream.current.kind = kind)) stream := rfl

theorem accept_run (kinds : List Kind) (stream : Stream) :
    accept kinds stream =
      if stream.current.kind ∈ kinds then .ok (some stream.current) stream.next
      else .ok none stream := by
  rw [accept, bind_of_ok _ (current_run stream)]
  by_cases listed : stream.current.kind ∈ kinds
  · simp [listed, bind_run, advance_run, pure_run]
  · simp [listed, pure_run]

theorem expect_run (kind : Kind) (message : String) (stream : Stream) :
    expect kind message stream =
      if stream.current.kind = kind then .ok stream.current stream.next
      else .error (.expected (.token kind) stream.current ((Wanted.token kind).complaint message))
        stream := by
  rw [expect, bind_of_ok _ (current_run stream)]
  by_cases same : stream.current.kind = kind
  · simp [same, advance_run]
  · simp [same, throw_run]

theorem expect_consumes (terminated : stream.Terminated)
    (success : expect kind message stream = .ok token after) (real : kind ≠ .endOfInput) :
    token.kind = kind ∧ stream.Consumes token after := by
  rw [expect_run] at success
  split at success
  · rename_i same
    cases success
    exact ⟨same, terminated.consumes (by rwa [same])⟩
  · cases success

theorem accept_some_consumes (terminated : stream.Terminated)
    (success : accept kinds stream = .ok (some token) after) (real : Kind.endOfInput ∉ kinds) :
    token.kind ∈ kinds ∧ stream.Consumes token after := by
  rw [accept_run] at success
  split at success
  · rename_i listed
    cases success
    refine ⟨listed, terminated.consumes ?_⟩
    intro ended
    exact real (ended ▸ listed)
  · cases success

theorem accept_none (success : accept kinds stream = .ok none after) :
    stream.current.kind ∉ kinds ∧ after = stream := by
  rw [accept_run] at success
  split at success
  · cases success
  · rename_i unlisted
    cases success
    exact ⟨unlisted, rfl⟩

theorem expect_at (place : stream.At turns (token :: tail)) (more : tail ≠ [])
    (same : token.kind = kind) (real : kind ≠ .endOfInput) :
    ∃ after, (∀ message, expect kind message stream = .ok token after) ∧ after.At turns tail := by
  refine ⟨stream.next, fun message => ?_, place.next more (same ▸ real)⟩
  simp [expect_run, Stream.current_of_remaining place.1, same]

theorem accept_at (place : stream.At turns (token :: tail)) (more : tail ≠ [])
    (listed : token.kind ∈ kinds) (real : Kind.endOfInput ∉ kinds) :
    ∃ after, accept kinds stream = .ok (some token) after ∧ after.At turns tail := by
  refine ⟨stream.next, ?_, place.next more fun ended => real (ended ▸ listed)⟩
  simp [accept_run, Stream.current_of_remaining place.1, listed]

theorem accept_at_none (kinds : List Kind) (place : stream.At turns (token :: tail))
    (unlisted : token.kind ∉ kinds) : accept kinds stream = .ok none stream := by
  simp [accept_run, Stream.current_of_remaining place.1, unlisted]

theorem check_at (kind : Kind) (place : stream.At turns (token :: tail)) :
    check kind stream = .ok (decide (token.kind = kind)) stream := by
  rw [check_run, Stream.current_of_remaining place.1]

theorem noteFunction_at (name : String) (arity : Nat) (place : stream.At turns tokens) :
    ∃ after, noteFunction name arity stream = .ok () after ∧ after.At turns tokens :=
  ⟨_, rfl, place⟩

end Parse

end Scriptlet
