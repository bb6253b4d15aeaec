import Scriptlet.Proofs.Grammar.Acceptance
import Scriptlet.Proofs.Grammar.Closings
import Scriptlet.Proofs.Parsing.Joining

/-! Where a text is found to be no program. The error names the first token that cannot go on from the
tokens before it: these are the start of some program, and nothing after that token was looked at. -/
namespace Scriptlet.Grammar

open Scriptlet.Action Parse Phrase

variable {limit depth turns : Nat} {stream : Stream} {tokens : List Token}

theorem topLevel_resumes (limit depth : Nat) :
    Resumes limit limit true (closing .declaration) (topLevel limit depth)
      (fun more => topLevel (limit + more) (depth + 80)) (Stops .declaration false) := by
  have resumes := parseWithin_resumes limit depth .declaration
  have settles : ∀ {span : List Token} {more : Nat},
      Settles (limit + more) (parseWithin (limit + more) (depth + 80) .declaration)
        (Stops .declaration false) span →
      Settles (limit + more) (topLevel (limit + more) (depth + 80)) (Stops .declaration false) span := by
    intro span more settled stream next rest place ends
    rcases settled place ends with ⟨node, after, success, place⟩ | ⟨line, after, failed⟩
    · exact .inl ⟨node, after, topLevel_eq_ok.mpr success, place⟩
    · exact .inr ⟨line, after, by rw [topLevel, failed]⟩
  refine ⟨fun more => settles (resumes.settles more), resumes.written, fun stream terminated roomy => ?_⟩
  have start := resumes.start stream terminated roomy
  refine ⟨fun node after success => ?_, fun wanted found message reached failed => ?_⟩
  · obtain ⟨span, split, nonempty, reads⟩ := start.again node after (topLevel_eq_ok.mp success)
    refine ⟨span, split, nonempty, fun more twin next rest place ends => ?_⟩
    obtain ⟨last, again, place⟩ := reads more place ends
    exact ⟨last, topLevel_eq_ok.mpr again, place⟩
  · have inner : parseWithin limit depth .declaration stream =
        .error (.expected wanted found message) reached := by
      unfold topLevel at failed
      split at failed
      · cases failed
      · exact failed
    obtain ⟨same, span, finish, split, written, settled⟩ := start.carried _ _ _ _ inner
    exact ⟨same, span, finish, split, written, fun more => settles (settled more)⟩

theorem programFrom_resumes (limit depth : Nat) (found : Array Node) (bounded : turns ≤ limit) :
    Resumes limit turns false [] (programFrom limit depth found turns)
      (fun more => programFrom (limit + more) (depth + 80) found (turns + more)) (Ends .endOfInput) := by
  induction turns generalizing found with
  | zero =>
    exact .spent (fun more => programFrom (limit + more) (depth + 80) found) (fun _ => .pure)
      fun _ _ => .unless (fun _ ends => ends) .pure
  | succ turns ih =>
    simp only [Nat.add_right_comm]
    exact .unless (fun _ ends => ends) .pure (.last (fun _ ends => .of_kind ends (by decide))
      ((topLevel_resumes limit depth).mono bounded) (fun node => ih _ (Nat.le_of_succ_le bounded))
      (Nat.le_refl _))

/-- More turns than there are tokens make no difference. -/
theorem programFrom_turns (terminated : stream.Terminated) (depth more : Nat) :
    (∀ error arrived, programFrom (stream.size + more) depth #[] (stream.size + more) stream =
        .error error arrived →
      ∃ after, programFrom stream.size depth #[] stream.size stream = .error error after ∧
        after.remaining = arrived.remaining) ∧
    ∀ found arrived, programFrom (stream.size + more) depth #[] (stream.size + more) stream =
        .ok found arrived →
      ∃ found after, programFrom stream.size depth #[] stream.size stream = .ok found after := by
  let fork : Fork := ⟨fun line => line, [], [], more⟩
  have there : fork.There stream.remaining stream := ⟨by simp [fork, Token.mapLine], terminated⟩
  have copy := (fork.programFrom_copies stream.size depth (Nat.le_refl _) #[] stream terminated).copy
    stream.remaining (final (programFrom stream.size depth #[] stream.size stream)).remaining stream
  have twins := copy (by simp [fork]) (Nat.le_of_eq stream.length_remaining) there (by simp [fork])
    (.inl (List.cons_ne_nil _ _))
  have start : Array.map (Node.mapLines fork.change) #[] = #[] := Array.map_empty
  rw [start, show fork.more = more from rfl] at twins
  generalize programFrom stream.size depth #[] stream.size stream = short at twins
  generalize programFrom (stream.size + more) depth #[] (stream.size + more) stream = long at twins
  cases short with
  | ok found after =>
    cases long with
    | ok => exact ⟨by simp, fun _ _ _ => ⟨found, after, rfl⟩⟩
    | error => exact absurd twins id
  | error error after =>
    cases long with
    | ok => exact absurd twins id
    | error error' arrived =>
      obtain ⟨same, there, -⟩ := twins
      refine ⟨fun wrong place failed => ?_, by simp⟩
      cases failed
      have unchanged : error.mapLine fork.change = error := by cases error <;> rfl
      refine ⟨after, by rw [same, unchanged], ?_⟩
      simpa [final, fork, Token.mapLine] using there.symm

/-- The tokens that were consumed are counted. -/
theorem programFrom_onward (terminated : stream.Terminated) (depth : Nat) :
    ∃ read, stream.remaining =
        read ++ (final (programFrom stream.size depth #[] stream.size stream)).remaining ∧
      (final (programFrom stream.size depth #[] stream.size stream)).pos = stream.pos + read.length := by
  let fork : Fork := ⟨fun line => line, [], [], 0⟩
  obtain ⟨read, split, counted, -⟩ :=
    (fork.programFrom_copies stream.size depth (Nat.le_refl _) #[] stream terminated).onward
  exact ⟨read, split, counted⟩

/-- An error at a token is found again, whatever comes after the token. -/
theorem programFrom_refused {read rest other : List Token} {token : Token} {twin : Stream}
    (failed : programFrom stream.size depth #[] stream.size stream = .error error reached)
    (terminated : stream.Terminated) (split : stream.remaining = read ++ token :: rest)
    (place : reached.remaining = token :: rest) (terminatedTwin : twin.Terminated)
    (splitTwin : twin.remaining = read ++ token :: other) :
    ∃ stopped, programFrom twin.size depth #[] twin.size twin = .error error stopped ∧
      stopped.remaining = token :: other := by
  let fork : Fork := ⟨fun line => line, rest, other, twin.size⟩
  have there : fork.There (read ++ [token]) twin :=
    ⟨by simp [fork, Token.mapLine, splitTwin], terminatedTwin⟩
  have room : (read ++ [token]).length ≤ stream.size := by
    rw [← stream.length_remaining, split]
    simp
  have twins := (fork.programFrom_copies stream.size depth (Nat.le_refl _) #[] stream terminated).copy
    (read ++ [token]) [token] twin (by simp [fork, split]) room there
    (by rw [failed]; exact place) (.inl (List.cons_ne_nil _ _))
  have start : Array.map (Node.mapLines fork.change) #[] = #[] := Array.map_empty
  rw [failed, start, show fork.more = twin.size from rfl, Nat.add_comm] at twins
  generalize outcome : programFrom (twin.size + stream.size) depth #[] (twin.size + stream.size) twin =
    long at twins
  cases long with
  | ok => exact absurd twins id
  | error error' arrived =>
    obtain ⟨rfl, there, -⟩ := twins
    have unchanged : error.mapLine fork.change = error := by cases error <;> rfl
    rw [unchanged] at outcome
    obtain ⟨stopped, again, same⟩ := (programFrom_turns terminatedTwin depth stream.size).1 _ _ outcome
    exact ⟨stopped, again, by rw [same, there]; simp [fork, Token.mapLine]⟩

/-- The end of the input after tokens that can be carried on to it. -/
theorem programFrom_settled {span : List Token} {last : Token}
    (settled : ∀ more, Settles (limit + more) (programFrom (limit + more) depth #[] (limit + more))
      (Ends .endOfInput) span) (ended : last.kind = .endOfInput)
    (split : stream.remaining = span ++ [last]) :
    (∃ found after, programFrom stream.size depth #[] stream.size stream = .ok found after) ∨
      ∃ line after, programFrom stream.size depth #[] stream.size stream =
        .error (.invalidTarget line) after := by
  have terminated := Stream.terminated_of_remaining split ended
  have enough : (span ++ [last]).length ≤ limit + stream.size := by
    rw [← split, stream.length_remaining]
    exact Nat.le_add_left _ _
  have turns := programFrom_turns terminated depth limit
  rw [Nat.add_comm] at turns
  rcases settled stream.size ⟨split, enough⟩ ended with ⟨found, after, success, -⟩ | failed
  · exact .inl (turns.2 found after success)
  · obtain ⟨line, after, failed⟩ := failed
    obtain ⟨stopped, again, -⟩ := turns.1 _ _ failed
    exact .inr ⟨line, stopped, again⟩

variable {source : String} {limits : Limits} {wanted : Wanted} {found : Token} {message : String}

theorem parseTokens_run (limits : Limits) (tokens : List Token) :
    Script.parseTokens limits tokens = (do
      let size := (Stream.ofTokens tokens).size
      return (← programFrom size limits.depth #[] size).toList) (Stream.ofTokens tokens) := by
  rw [Script.parseTokens, Parse.program, bind_of_ok _ (get_run _)]

theorem parseTokens_eq_error : Script.parseTokens limits tokens = .error error reached ↔
    programFrom (Stream.ofTokens tokens).size limits.depth #[] (Stream.ofTokens tokens).size
      (Stream.ofTokens tokens) = .error error reached := by
  rw [parseTokens_run, bind_run]
  cases programFrom (Stream.ofTokens tokens).size limits.depth #[] (Stream.ofTokens tokens).size
    (Stream.ofTokens tokens) <;> simp [pure_run]

/-- A list of tokens as a stream: the tokens, and perhaps an end that they lack. -/
theorem exists_remaining (tokens : List Token) :
    ∃ tail, (Stream.ofTokens tokens).remaining = tokens ++ tail := by
  rw [Stream.remaining_terminate]
  unfold Stream.terminate
  split
  · rename_i none
    exact ⟨[_], by rw [List.getLast?_eq_none_iff.mp none]; rfl⟩
  · split
    · exact ⟨[], (List.append_nil tokens).symm⟩
    · exact ⟨[_], rfl⟩

/-- A list that is accepted, or refused only for the target of an assignment, is so at any higher depth
limit. -/
theorem parseTokens_deeper {deeper : Limits} {body : List Token} {last : Token}
    (more : limits.depth ≤ deeper.depth) (ended : last.kind = .endOfInput)
    (spelled : ∀ token ∈ body, Lexeme.Spelled token.kind token.lexeme.toList)
    (outcome : (∃ program after, Script.parseTokens limits (body ++ [last]) = .ok program after) ∨
      ∃ line after, Script.parseTokens limits (body ++ [last]) = .error (.invalidTarget line) after) :
    (∃ program after, Script.parseTokens deeper (body ++ [last]) = .ok program after) ∨
      ∃ line after, Script.parseTokens deeper (body ++ [last]) = .error (.invalidTarget line) after := by
  obtain ⟨-, agrees⟩ := program_agree more (Stream.ofTokens (body ++ [last]))
    (readable_of_spelled ended spelled)
  have same : Script.parseTokens limits (body ++ [last]) = Script.parseTokens deeper (body ++ [last]) := by
    rcases agrees with ⟨_, reached, ⟨line, rfl⟩, failed⟩ | same
    · have failed : Script.parseTokens limits (body ++ [last]) = _ := failed
      rcases outcome with ⟨program, after, success⟩ | ⟨line, after, wrong⟩
      · cases failed.symm.trans success
      · cases failed.symm.trans wrong
    · exact same
  rwa [← same]

/-- Where an unexpected token was found: after tokens that can be carried on. -/
theorem exists_stop (lexed : tokenize source = .ok tokens)
    (failed : Script.parseTokens limits tokens = .error (.expected wanted found message) reached) :
    ∃ span rest finish, tokens = span ++ found :: rest ∧ reached.remaining = found :: rest ∧
      reached.pos = span.length ∧ Written finish ∧
      ∀ more, Settles (tokens.length + more) (programFrom (tokens.length + more) (limits.depth + 80) #[]
        (tokens.length + more)) (Ends .endOfInput) (span ++ finish) := by
  obtain ⟨body, last, same, ended, -⟩ := tokenize_tokens lexed
  have whole : (Stream.ofTokens tokens).remaining = tokens := by
    rw [same, Stream.remaining_ofTokens ended]
  have size : (Stream.ofTokens tokens).size = tokens.length := by rw [← Stream.length_remaining, whole]
  have terminated := Stream.terminated_of_remaining (whole.trans same) ended
  have inner := parseTokens_eq_error.mp failed
  obtain ⟨read, split, counted⟩ := programFrom_onward terminated limits.depth
  have resumes := programFrom_resumes (Stream.ofTokens tokens).size limits.depth #[] (Nat.le_refl _)
  obtain ⟨isCurrent, span, finish, splitSpan, written, settled⟩ :=
    (resumes.start _ terminated (Nat.le_refl _)).carried _ _ _ _ inner
  rw [inner] at split counted
  obtain rfl : span = read := List.append_cancel_right (splitSpan.symm.trans split)
  have place : reached.remaining = found :: reached.ahead := by rw [isCurrent]; rfl
  rw [size] at settled
  refine ⟨span, reached.ahead, finish, ?_, place, ?_, written, settled⟩
  · rw [← place, ← splitSpan, whole]
  · simpa [final, Stream.pos_ofTokens] using counted

/-- Any other list of tokens with the same ones up to the unexpected token is refused for it. -/
theorem parseTokens_refused {other span rest : List Token} (lexed : tokenize source = .ok tokens)
    (failed : Script.parseTokens limits tokens = .error error reached)
    (split : tokens = span ++ found :: rest) (place : reached.remaining = found :: rest)
    (agrees : other.take (span.length + 1) = tokens.take (span.length + 1)) :
    ∃ stopped, Script.parseTokens limits other = .error error stopped ∧ stopped.pos = span.length := by
  obtain ⟨body, last, same, ended, -⟩ := tokenize_tokens lexed
  have whole : (Stream.ofTokens tokens).remaining = span ++ found :: rest := by
    rw [← split, same, Stream.remaining_ofTokens ended]
  have terminated := Stream.terminated_of_remaining (whole.trans (split.symm.trans same)) ended
  have fronts : tokens.take (span.length + 1) = span ++ [found] := by
    rw [split, List.take_length_add_append, List.take_succ_cons, List.take_zero]
  obtain ⟨tail, wholeTwin⟩ := exists_remaining other
  have terminatedTwin := Stream.Terminated.ofTokens other
  have splitTwin : (Stream.ofTokens other).remaining =
      span ++ found :: (other.drop (span.length + 1) ++ tail) := by
    rw [wholeTwin, ← List.take_append_drop (span.length + 1) other, agrees, fronts]
    simp
  obtain ⟨stopped, refused, left⟩ := programFrom_refused (parseTokens_eq_error.mp failed) terminated
    whole place terminatedTwin splitTwin
  refine ⟨stopped, parseTokens_eq_error.mpr refused, ?_⟩
  obtain ⟨read, splitAgain, counted⟩ := programFrom_onward terminatedTwin limits.depth
  rw [refused] at splitAgain counted
  have splitAgain : (Stream.ofTokens other).remaining = read ++ stopped.remaining := splitAgain
  rw [left, splitTwin] at splitAgain
  rw [List.append_cancel_right splitAgain]
  simpa [final, Stream.pos_ofTokens] using counted

/-- Tokens that can be carried on to the end of the input. -/
theorem parseTokens_settled {span : List Token} {last : Token} (ended : last.kind = .endOfInput)
    (settled : ∀ more, Settles (limit + more) (programFrom (limit + more) limits.depth #[] (limit + more))
      (Ends .endOfInput) span) :
    (∃ program after, Script.parseTokens limits (span ++ [last]) = .ok program after) ∨
      ∃ line after, Script.parseTokens limits (span ++ [last]) = .error (.invalidTarget line) after := by
  rcases programFrom_settled settled ended (Stream.remaining_ofTokens ended) with
    ⟨nodes, after, success⟩ | ⟨line, after, wrong⟩
  · refine .inl ⟨nodes.toList, after, ?_⟩
    rw [parseTokens_run, bind_of_ok _ success, pure_run]
  · exact .inr ⟨line, after, parseTokens_eq_error.mpr wrong⟩

/-- The tokens before some token of a source are spelled ones. -/
theorem spelled_before {span rest : List Token} (lexed : tokenize source = .ok tokens)
    (split : tokens = span ++ found :: rest) :
    ∀ token ∈ span, Lexeme.Spelled token.kind token.lexeme.toList := by
  obtain ⟨body, last, same, -, spelled⟩ := tokenize_tokens lexed
  have whole : body ++ [last] = span ++ found :: rest := same.symm.trans split
  have short : span.length ≤ body.length := by
    have count := congrArg List.length whole
    simp only [List.length_append, List.length_cons, List.length_nil] at count
    omega
  have front : body.take span.length = span := by
    rw [← List.take_append_of_le_length short, whole, List.take_left]
  intro token member
  rw [← front] at member
  exact spelled token (List.mem_of_mem_take member)

/-- A syntax error is about the first token that does not go on with a program: it names the token at
which the parser stopped, every other list of tokens with the same ones up to this token is refused for
it in the same way, and the tokens before it are the start of a list that the parser accepts or refuses
only for the target of an assignment. -/
theorem syntax_error_at_first_wrong_token (limits : Limits) (lexed : tokenize source = .ok tokens)
    (failed : Script.parseTokens limits tokens = .error (.expected wanted found message) reached) :
    tokens[reached.pos]? = some found ∧
    (∀ other : List Token, other.take (reached.pos + 1) = tokens.take (reached.pos + 1) →
      ∃ stopped, Script.parseTokens limits other = .error (.expected wanted found message) stopped ∧
        stopped.pos = reached.pos) ∧
    ∃ finish, Written finish ∧ ∀ deeper : Limits, limits.depth + 80 ≤ deeper.depth →
      let extended := tokens.take reached.pos ++ finish ++ [⟨.endOfInput, "", 1⟩]
      (∃ program after, Script.parseTokens deeper extended = .ok program after) ∨
        ∃ line after, Script.parseTokens deeper extended = .error (.invalidTarget line) after := by
  obtain ⟨span, rest, finish, split, place, counted, written, settled⟩ := exists_stop lexed failed
  rw [counted]
  refine ⟨by rw [split]; simp, fun other => parseTokens_refused lexed failed split place, finish,
    written, fun deeper more => ?_⟩
  have isEnd : (⟨.endOfInput, "", 1⟩ : Token).kind = .endOfInput := rfl
  have spelled : ∀ token ∈ span ++ finish, Lexeme.Spelled token.kind token.lexeme.toList := by
    intro token member
    rcases List.mem_append.mp member with inSpan | inFinish
    · exact spelled_before lexed split token inSpan
    · exact (written token inFinish).1
  let roomy : Limits := { limits with depth := limits.depth + 80 }
  have enough : roomy.depth ≤ deeper.depth := more
  have front : tokens.take span.length = span := by rw [split, List.take_left]
  rw [front]
  exact parseTokens_deeper enough isEnd spelled (parseTokens_settled isEnd settled)

/-- The text stops in the condition of a loop. The error is about its end, and there is a condition and
a body to go on with. -/
theorem syntax_error_at_first_wrong_token_openLoop :
    ∃ tokens reached, tokenize "while (a" = .ok tokens ∧
      Script.parseTokens .standard tokens =
        .error (.expected (.token .rightParen) ⟨.endOfInput, "", 1⟩ "Expected ')' after while condition")
          reached ∧
      tokens[reached.pos]? = some ⟨.endOfInput, "", 1⟩ := by
  have lexed : tokenize "while (a" = .ok [⟨.whileWord, "while", 1⟩, ⟨.leftParen, "(", 1⟩,
      ⟨.identifier, "a", 1⟩, ⟨.endOfInput, "", 1⟩] := rfl
  have failed : ∃ reached, Script.parseTokens .standard [⟨.whileWord, "while", 1⟩, ⟨.leftParen, "(", 1⟩,
      ⟨.identifier, "a", 1⟩, ⟨.endOfInput, "", 1⟩] = .error (.expected (.token .rightParen)
        ⟨.endOfInput, "", 1⟩ "Expected ')' after while condition") reached := ⟨_, rfl⟩
  obtain ⟨reached, failed⟩ := failed
  exact ⟨_, reached, lexed, failed, (syntax_error_at_first_wrong_token .standard lexed failed).1⟩

end Scriptlet.Grammar
