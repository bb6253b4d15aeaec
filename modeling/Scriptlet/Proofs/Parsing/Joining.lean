import Scriptlet.Proofs.Grammar.Acceptance
import Scriptlet.Proofs.Parsing.Locality
import Scriptlet.Proofs.Token.Joining

/-! Programs that are joined line by line: each line is read as it is by itself, since what comes
after a program is never taken for a part of it. -/
namespace Scriptlet

open Scriptlet.Action Parse

namespace Fork

variable {fork : Fork} {limit depth : Nat} {span left : List Token} {stream after twin : Stream}

/-- A declaration that ends within the common tokens is read in the second text as well. -/
theorem topLevel_twin (free : fork.Free) {node : Node}
    (terminated : stream.Terminated) (success : topLevel limit depth stream = .ok node after)
    (split : stream.remaining = span ++ fork.rest) (room : span.length ≤ limit)
    (there : fork.There span twin) (ended : after.remaining = left ++ fork.rest) :
    ∃ arrived, topLevel (limit + fork.more) depth twin = .ok (node.mapLines fork.change) arrived ∧
      fork.There left arrived := by
  have copy := (fork.topLevel_copies limit depth stream terminated).copy
  rw [success] at copy
  have twins := copy span left twin split room there ended (.inr ⟨rfl, free, rfl⟩)
  generalize topLevel (limit + fork.more) depth twin = reached at twins
  cases reached with
  | error => exact absurd twins id
  | ok value arrived =>
    obtain ⟨rfl, there⟩ := twins
    exact ⟨arrived, rfl, there⟩

/-- A later place stands before the same last token. -/
theorem exists_left {read : List Token} {middle : Stream} {last : Token}
    (split : stream.remaining = span ++ [last]) (began : stream.remaining = read ++ middle.remaining) :
    ∃ left, middle.remaining = left ++ [last] ∧ span = read ++ left := by
  rcases List.eq_nil_or_concat middle.remaining with none | ⟨left, final, some⟩
  · cases none
  · rw [split, some, List.concat_eq_append, ← List.append_assoc] at began
    obtain ⟨rfl, same⟩ := List.append_inj' began rfl
    cases same
    exact ⟨left, by rw [some, List.concat_eq_append], rfl⟩

/-- Where one text ends, the other one has been read just as far, and enough turns are left. -/
theorem programFrom_twin (free : fork.Free)
    {found program : Array Node} {last : Token}
    (success : programFrom limit depth found turns stream = .ok program after)
    (closing : fork.rest = [last]) (isLast : last.kind = .endOfInput)
    (real : ∀ token ∈ span, token.kind ≠ .endOfInput)
    (split : stream.remaining = span ++ fork.rest) (room : span.length < limit)
    (enough : span.length < turns) (there : fork.There span twin) (start : Array Node)
    (spare : span.length + turnsAfter ≤ twinTurns) :
    ∃ nodes arrived more, program.toList = found.toList ++ nodes ∧ fork.There [] arrived ∧
      turnsAfter ≤ more ∧ programFrom (limit + fork.more) depth start twinTurns twin =
        programFrom (limit + fork.more) depth
          (start ++ (nodes.map (·.mapLines fork.change)).toArray) more arrived := by
  induction turns generalizing found start span stream twin twinTurns with
  | zero => omega
  | succ turns ih =>
    have terminated := Stream.terminated_of_remaining (closing ▸ split) isLast
    rw [programFrom, bind_of_ok _ (check_run _ stream)] at success
    cases span with
    | nil =>
      rw [closing] at split
      rw [Stream.current_of_remaining split, isLast] at success
      cases success
      exact ⟨[], twin, twinTurns, by simp, there, by simpa using spare, by simp⟩
    | cons token span =>
      have more : token.kind ≠ .endOfInput := real token (by simp)
      rw [Stream.current_of_remaining split, if_neg (by simp [more])] at success
      obtain ⟨node, middle, atNode, success⟩ := bind_eq_ok.mp success
      obtain ⟨read, began, -, taken⟩ := (fork.topLevel_copies limit depth stream terminated).onward
      rw [atNode] at began taken
      obtain ⟨left, ended, whole⟩ := exists_left (closing ▸ split) began
      rw [← closing] at ended
      have shorter : left.length ≤ span.length := by
        have some := List.length_pos_iff.mpr (taken rfl rfl)
        have count := congrArg List.length whole
        simp only [List.length_cons, List.length_append] at count
        omega
      obtain ⟨arrived, atTwin, there'⟩ := topLevel_twin free terminated atNode split (Nat.le_of_lt room) there
        ended
      rw [List.length_cons] at room enough spare
      obtain ⟨twinTurns, rfl⟩ : ∃ turns, twinTurns = turns + 1 := ⟨twinTurns - 1, by omega⟩
      obtain ⟨nodes, final, unused, gathered, stands, fits, ran⟩ :=
        ih success (fun token member => real token (by simp [whole, member])) ended (by omega)
          (by omega) there' (start.push (node.mapLines fork.change))
          (show left.length + turnsAfter ≤ twinTurns by omega)
      refine ⟨node :: nodes, final, unused, by simpa using gathered, stands, fits, ?_⟩
      rw [programFrom, bind_of_ok _ (check_run _ twin), there.current,
        if_neg (by simp [Token.mapLine, more]), bind_of_ok _ atTwin, ran]
      simp

end Fork

open Scan

/-- Tokens that are read as a program when they stand alone. -/
structure Standalone (limits : Limits) (body : List Token) (program : List Node) : Prop where
  real : ∀ token ∈ body, token.kind ≠ .endOfInput
  opens : ∀ first ∈ body.head?, first.kind ≠ .elseWord
  parses : ∃ last after, last.kind = .endOfInput ∧
    Script.parseTokens limits (body ++ [last]) = .ok program after

variable {limits : Limits} {source : String} {body : List Token} {program : List Node}

theorem exists_standalone (success : Script.parse limits source = .ok program) :
    ∃ body, Cut [] source.toList body ∧ Standalone limits body program := by
  obtain ⟨tokens, after, lexed, parsed⟩ := Grammar.parse_eq_ok.mp success
  obtain ⟨parts, last, derivations, -, split, -⟩ := Grammar.parseTokens_sound lexed parsed
  obtain ⟨body, cut, rfl⟩ := tokenize_eq_ok_iff.mp lexed
  obtain ⟨rfl, -⟩ := List.append_inj' split rfl
  obtain ⟨_, last, same, -, spelled⟩ := tokenize_tokens lexed
  obtain ⟨rfl, -⟩ := List.append_inj' same rfl
  refine ⟨_, cut, fun token member => (spelled token member).kind_ne_end, ?_, _, after, rfl, parsed⟩
  cases parts with
  | nil => simp
  | cons part parts =>
    obtain ⟨first, rest, same, opens⟩ := (derivations part (by simp)).first_token
    intro token starts
    simp only [List.map_cons, same, List.flatten_cons, List.cons_append, List.head?_cons,
      Option.mem_some_iff] at starts
    subst starts
    rintro isElse
    rw [isElse] at opens
    exact absurd opens (by decide)

/-- The turns of a program that stands alone. -/
theorem Standalone.programFrom (alone : Standalone limits body program) :
    ∃ last stream after found, last.kind = .endOfInput ∧ stream.remaining = body ++ [last] ∧
      found.toList = program ∧
      Parse.programFrom (body.length + 1) limits.depth #[] (body.length + 1) stream =
        .ok found after := by
  obtain ⟨last, after, isLast, success⟩ := alone.parses
  have whole : (Stream.ofTokens (body ++ [last])).remaining = body ++ [last] :=
    Stream.remaining_ofTokens isLast
  have size : (Stream.ofTokens (body ++ [last])).size = body.length + 1 := by
    rw [← Stream.length_remaining, whole, List.length_append, List.length_singleton]
  rw [Script.parseTokens, Parse.program, bind_of_ok _ (get_run _)] at success
  simp only [bind_eq_ok, pure_eq_ok, size] at success
  obtain ⟨found, _, ran, gathered, -⟩ := success
  exact ⟨last, _, _, found, isLast, whole, gathered, ran⟩

/-- The tokens of lines, with the lines above them counted. -/
abbrev stackedTokens (above : Nat) (bodies : List (List Token)) : List Token :=
  stacked (fun above => Token.mapLine (· + (above : Int))) above bodies

/-- The statements of lines, with the lines above them counted. -/
abbrev stackedNodes (above : Nat) (programs : List (List Node)) : List Node :=
  stacked (fun above => Node.mapLines (· + (above : Int))) above programs

/-- No line starts with an `else`, so neither does what they make up together. -/
theorem stacked_opens {bodies : List (List Token)} {programs : List (List Node)} {last : Token}
    (alone : List.Forall₂ (Standalone limits) bodies programs) (isLast : last.kind = .endOfInput)
    (above : Nat) :
    ∀ next ∈ (stackedTokens above bodies ++ [last]).head?, next.kind ≠ .elseWord := by
  induction alone generalizing above with
  | nil => simp [stackedTokens, stacked, isLast]
  | @cons body program bodies programs first _ ih =>
    cases body with
    | nil => exact ih (above + 1)
    | cons token body =>
      intro next starts
      cases starts
      exact first.opens token rfl

theorem programFrom_joined {bodies : List (List Token)} {programs : List (List Node)} {last : Token}
    {stream : Stream} (alone : List.Forall₂ (Standalone limits) bodies programs)
    (isLast : last.kind = .endOfInput) (room : ∀ body ∈ bodies, body.length < limit) (above : Nat)
    (start : Array Node) (split : stream.remaining = stackedTokens above bodies ++ [last])
    (enough : (stackedTokens above bodies).length < turns) :
    ∃ after, Parse.programFrom limit limits.depth start turns stream =
      .ok (start ++ (stackedNodes above programs).toArray) after := by
  induction alone generalizing above start stream turns with
  | nil =>
    obtain ⟨turns, rfl⟩ := Nat.exists_eq_add_one_of_ne_zero (Nat.ne_zero_of_lt enough)
    refine ⟨stream, ?_⟩
    rw [Parse.programFrom, bind_of_ok _ (check_run _ stream), Stream.current_of_remaining split, isLast]
    simp [stackedNodes, stacked, pure_run]
  | @cons body program bodies programs first rest ih =>
    obtain ⟨end', single, ended, found, isEnd, whole, gathered, ran⟩ := first.programFrom
    obtain ⟨more, rfl⟩ := Nat.exists_eq_add_of_le (Nat.succ_le_of_lt (room body (by simp)))
    let fork : Fork := ⟨(· + (above : Int)), [end'], stackedTokens (above + 1) bodies ++ [last], more⟩
    have there : fork.There body stream := by
      refine ⟨?_, Stream.terminated_of_remaining split isLast⟩
      rw [split, stackedTokens, stacked, List.append_assoc]
    have free : fork.Free :=
      stacked_opens rest isLast (above + 1)
    simp only [stackedTokens, stacked, List.length_append, List.length_map] at enough
    obtain ⟨nodes, arrived, left, same, stands, fits, twin⟩ :=
      Fork.programFrom_twin free ran rfl isEnd first.real whole (Nat.lt_succ_self _)
        (Nat.lt_succ_self _) there start
        (show body.length + ((stackedTokens (above + 1) bodies).length + 1) ≤ turns by
          simp only [stackedTokens]; omega)
    obtain ⟨after, rest⟩ := ih (fun body member => room body (by simp [member])) (above + 1) _
      stands.1 fits
    refine ⟨after, ?_⟩
    obtain rfl : program = nodes := by simpa [gathered] using same
    rw [twin, rest]
    simp [stackedNodes, stacked, fork]

/-- A text that is joined from lines which are programs by themselves is their programs one after the
other, with each node on the line that it has come to. -/
theorem parse_joined {lines : List String} {programs : List (List Node)}
    (unbroken : ∀ line ∈ lines, '\n' ∉ line.toList)
    (parsed : List.Forall₂ (fun line program => Script.parse limits line = .ok program) lines programs) :
    Script.parse limits ("\n".intercalate lines) = .ok (stackedNodes 0 programs) := by
  obtain ⟨bodies, cuts, alone⟩ : ∃ bodies,
      List.Forall₂ (fun line body => '\n' ∉ line.toList ∧ Cut [] line.toList body) lines bodies ∧
        List.Forall₂ (Standalone limits) bodies programs := by
    induction parsed with
    | nil => exact ⟨[], .nil, .nil⟩
    | cons success _ ih =>
      obtain ⟨body, cut, alone⟩ := exists_standalone success
      obtain ⟨bodies, cuts, others⟩ := ih fun line member => unbroken line (by simp [member])
      exact ⟨body :: bodies, .cons ⟨unbroken _ (by simp), cut⟩ cuts, .cons alone others⟩
  obtain ⟨line, lexed⟩ := tokenize_joined cuts
  rw [Script.parse, lexed]
  dsimp only
  rw [Script.parseTokens, Parse.program, bind_of_ok _ (get_run _)]
  generalize isLast : (⟨.endOfInput, "", line⟩ : Token) = last
  have ended : last.kind = .endOfInput := isLast ▸ rfl
  have whole : (Stream.ofTokens (stackedTokens 0 bodies ++ [last])).remaining =
      stackedTokens 0 bodies ++ [last] := Stream.remaining_ofTokens ended
  have size : (Stream.ofTokens (stackedTokens 0 bodies ++ [last])).size =
      (stackedTokens 0 bodies).length + 1 := by
    rw [← Stream.length_remaining, whole, List.length_append, List.length_singleton]
  have room : ∀ body ∈ bodies, body.length < (stackedTokens 0 bodies).length + 1 :=
    fun body member => Nat.lt_succ_of_le (length_le_stacked member)
  obtain ⟨after, ran⟩ := programFrom_joined alone ended room 0 #[] whole (Nat.lt_succ_self _)
  rw [size, bind_of_ok _ ran, pure_run]
  simp

end Scriptlet
