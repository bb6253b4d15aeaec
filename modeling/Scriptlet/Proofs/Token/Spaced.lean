import Scriptlet.Proofs.Token.Scanning

/-! Tokens on the first line of a source, with spaces only where they are wanted. Two tokens need no
space between them if the second starts with a character that no token goes on with, or if the first
is a mark that an operand may follow at once. -/
namespace Scriptlet

namespace Lexeme

/-- Characters that no token goes on with. -/
def dividers : List Char :=
  [' ', '(', ')', ',', ';']

/-- Whatever token stands before a text, it ends there. -/
def Divides (rest : List Char) : Prop :=
  ∀ c ∈ rest.head?, c ∈ dividers

/-- Marks that an operand may follow at once. -/
def openings : List Char :=
  ['(', '-', '!']

variable {kind : Kind} {lexeme rest other : List Char} {c : Char}

theorem Divides.append (divides : Divides rest) (more : Divides other) : Divides (rest ++ other) := by
  cases rest with
  | nil => exact more
  | cons c rest => exact divides

theorem Divides.of_mem (divider : c ∈ dividers) : Divides (c :: rest) := by
  simpa [Divides] using divider

theorem divider_ends (divider : c ∈ dividers) : isWordChar c = false ∧ Number.isPlain c = false := by
  have outside : dividers.all fun c => !(isWordChar c || Number.isPlain c) := by decide +kernel
  simpa using List.all_eq_true.mp outside c divider

theorem Spelled.tail_undivided (spelled : Spelled kind lexeme) : ∀ c ∈ lexeme.tail, c ∉ dividers := by
  intro c member divider
  obtain ⟨notWord, notPlain⟩ := divider_ends divider
  cases spelled with
  | mark listed =>
    have undivided : ∀ mark ∈ marks, mark.1.tail.all fun c => !dividers.contains c := by decide
    have outside := List.all_eq_true.mp (undivided _ listed) c member
    simp [divider] at outside
  | number _ digits =>
    have plain := Number.numeral_plain digits c (List.mem_of_mem_tail member)
    rw [notPlain] at plain
    cases plain
  | word _ each =>
    have more := each c member
    rw [notWord] at more
    cases more

/-- Whatever token stands before a text, it ends there, and it opens no comment with the text. -/
def Ended (rest : List Char) : Prop :=
  ∀ c ∈ rest.head?, c ≠ '/' ∧ ∀ ⦃kind word⦄, Spelled kind word → c ∉ word.tail

theorem Divides.ended (divides : Divides rest) : Ended rest := by
  intro c next
  have divider := divides c next
  refine ⟨?_, fun kind word spelled inside => spelled.tail_undivided c inside divider⟩
  rintro rfl
  exact absurd divider (by decide)

theorem Longest.of_ended (spelled : Spelled kind lexeme) (ended : Ended rest) :
    Longest kind lexeme (lexeme ++ rest) := by
  refine ⟨spelled, List.prefix_append _ _, fun other word spelledWord starts => ?_⟩
  refine Nat.le_of_not_lt fun longer => ?_
  obtain ⟨more, rfl⟩ := List.prefix_of_prefix_length_le (List.prefix_append lexeme rest) starts
    (Nat.le_of_lt longer)
  obtain ⟨first, lexeme, rfl⟩ := List.exists_cons_of_ne_nil spelled.ne_nil
  cases more with
  | nil => simp at longer
  | cons c more =>
    have next : c ∈ rest.head? := by
      obtain ⟨tail, rfl⟩ := (List.prefix_append_right_inj _).mp starts
      rfl
    exact (ended c next).2 spelledWord (by simp)

theorem opensComment_ended (spelled : Spelled kind lexeme) (ended : Ended rest) :
    opensComment (lexeme ++ rest) = false := by
  obtain ⟨first, lexeme, rfl⟩ := List.exists_cons_of_ne_nil spelled.ne_nil
  rw [List.cons_append, opensComment_cons]
  by_cases slash : first = '/'
  · obtain ⟨-, rfl⟩ := List.cons.inj (spelled.slash_alone (by simp [slash]))
    have notSlash : rest.head? ≠ some '/' := fun next => (ended '/' next).1 rfl
    simp [notSlash]
  · simp [slash]

/-- The only longer mark that starts with one of them is `!=`. -/
theorem Longest.of_opening (listed : ([c], kind) ∈ marks) (opens : c ∈ openings)
    (apart : c = '!' → rest.head? ≠ some '=') : Longest kind [c] (c :: rest) := by
  refine ⟨.mark listed, List.prefix_append [c] rest, fun other word spelled starts => ?_⟩
  obtain ⟨first, word, rfl⟩ := List.exists_cons_of_ne_nil spelled.ne_nil
  obtain ⟨rfl, next⟩ := List.cons_prefix_cons.mp starts
  have notName : openings.all fun c => !(Text.isDigit c || Text.isLetter c) := by decide +kernel
  obtain ⟨notDigit, notLetter⟩ : Text.isDigit first = false ∧ Text.isLetter first = false := by
    simpa using List.all_eq_true.mp notName first opens
  generalize whole : first :: word = written at spelled
  cases spelled with
  | mark again =>
    subst whole
    have short : ∀ mark ∈ marks, mark.1.head?.any (· ∈ openings) →
        mark.1.tail = [] ∨ mark.1 = ['!', '='] := by decide
    rcases short _ again (by simpa using opens) with none | equals
    · simp only [List.tail_cons] at none
      simp [none]
    · obtain ⟨rfl, rfl⟩ := List.cons.inj equals
      obtain ⟨tail, rfl⟩ := next
      exact absurd rfl (apart rfl)
  | @number run _ some digits =>
    obtain ⟨digit, run, rfl⟩ := List.exists_cons_of_ne_nil some
    obtain ⟨rfl, -⟩ := List.cons.inj whole
    rw [digits first (by simp)] at notDigit
    cases notDigit
  | word letter =>
    obtain ⟨rfl, -⟩ := List.cons.inj whole
    rw [letter] at notLetter
    cases notLetter

theorem opensComment_opening (opens : c ∈ openings) : opensComment (c :: rest) = false := by
  have notSlash : c ≠ '/' := by
    rintro rfl
    exact absurd opens (by decide)
  simp [opensComment_cons, notSlash]

end Lexeme

namespace Scan

open Lexeme

/-- A text on the first line, and the tokens that it is cut into. -/
inductive Shows : (text : List Char) → (tokens : List Token) → Prop where
  | none : Shows [] []
  | space {tokens : List Token} (more : Shows rest tokens) : Shows (' ' :: rest) tokens
  | token {tokens : List Token} (spelled : Spelled kind lexeme) (divides : Divides rest)
      (more : Shows rest tokens) : Shows (lexeme ++ rest) (⟨kind, String.ofList lexeme, 1⟩ :: tokens)
  | opening {tokens : List Token} (listed : ([c], kind) ∈ marks) (opens : c ∈ openings)
      (apart : c = '!' → rest.head? ≠ some '=') (more : Shows rest tokens) :
      Shows (c :: rest) (⟨kind, String.ofList [c], 1⟩ :: tokens)

variable {text other lexeme rest before stop : List Char} {tokens more : List Token} {kind : Kind}

theorem Shows.append (shows : Shows text tokens) (onward : Shows other more) (divides : Divides other) :
    Shows (text ++ other) (tokens ++ more) := by
  induction shows with
  | none => exact onward
  | space _ ih => exact .space ih
  | token spelled ends _ ih =>
    rw [List.append_assoc]
    exact .token spelled (ends.append divides) ih
  | @opening _ _ rest _ listed opens apart _ ih =>
    refine .opening listed opens (fun bang => ?_) ih
    cases rest with
    | cons c rest => exact apart bang
    | nil =>
      intro equals
      exact absurd (divides '=' equals) (by decide)

theorem Shows.spaced (shows : Shows text tokens) (onward : Shows other more) :
    Shows (text ++ ' ' :: other) (tokens ++ more) :=
  shows.append (.space onward) (.of_mem (by decide))

theorem Shows.of_spelled (spelled : Spelled kind lexeme) :
    Shows lexeme [⟨kind, String.ofList lexeme, 1⟩] := by
  have nothing : Divides [] := by simp [Divides]
  have alone := Shows.token spelled nothing .none
  rwa [List.append_nil] at alone

theorem Shows.line (shows : Shows text tokens) : ∀ token ∈ tokens, token.line = 1 := by
  induction shows with
  | none => simp
  | space _ ih => exact ih
  | token _ _ _ ih => simpa using ih
  | opening _ _ _ _ ih => simpa using ih

theorem Shows.unbroken (shows : Shows text tokens) : '\n' ∉ text := by
  induction shows with
  | none => simp
  | space _ ih => simpa using ih
  | token spelled _ _ ih =>
    intro member
    rcases List.mem_append.mp member with inLexeme | inRest
    · cases spelled.not_blank _ inLexeme
    · exact ih inRest
  | @opening c _ _ _ listed _ _ _ ih =>
    intro member
    rcases List.mem_cons.mp member with rfl | inRest
    · cases (Spelled.mark listed).not_blank '\n' (by simp)
    · exact ih inRest

theorem lineAfter_unbroken (unbroken : '\n' ∉ text) : lineAfter text = 1 := by
  rw [lineAfter, List.count_eq_zero.mpr unbroken]
  rfl

/-- A space in front of a text belongs to the gap before its first token. -/
theorem exists_munches_space
    (munches : ∃ stop last, Munches (before ++ [' ']) rest tokens stop last ∧ Gap last []) :
    ∃ stop last, Munches before (' ' :: rest) tokens stop last ∧ Gap last [] := by
  obtain ⟨stop, last, munches, ends⟩ := munches
  cases munches with
  | here => exact ⟨_, _, .here, .blank rfl ends⟩
  | token between plain longest onward =>
    refine ⟨stop, last, ?_, ends⟩
    rename_i gap _ _ _ _
    have place : before ++ [' '] ++ gap = before ++ ' ' :: gap := by simp
    rw [place] at onward ⊢
    exact .token (.blank rfl between) plain longest onward

theorem Shows.exists_munches (shows : Shows text tokens) (unbroken : '\n' ∉ before) :
    ∃ stop last, Munches before text tokens stop last ∧ Gap last [] := by
  induction shows generalizing before with
  | none => exact ⟨before, [], .here, .none⟩
  | space _ ih => exact exists_munches_space (ih (by simpa using unbroken))
  | @token _ lexeme _ _ spelled divides _ ih =>
    have dark : '\n' ∉ lexeme := fun member => by cases spelled.not_blank _ member
    have inside : '\n' ∉ before ++ lexeme := by simpa using ⟨unbroken, dark⟩
    obtain ⟨stop, last, munches, ends⟩ := ih inside
    have read := Munches.token .none (opensComment_ended spelled divides.ended)
      (.of_ended spelled divides.ended) (by simpa using munches)
    exact ⟨stop, last, by simpa [lineAfter_unbroken unbroken] using read, ends⟩
  | @opening c _ _ _ listed opens apart _ ih =>
    have dark : '\n' ≠ c := by
      rintro rfl
      cases (Spelled.mark listed).not_blank '\n' (by simp)
    have inside : '\n' ∉ before ++ [c] := by simpa using ⟨unbroken, dark⟩
    obtain ⟨stop, last, munches, ends⟩ := ih inside
    have read := Munches.token .none (opensComment_opening opens) (.of_opening listed opens apart)
      (by simpa using munches)
    exact ⟨stop, last, by simpa [lineAfter_unbroken unbroken] using read, ends⟩

/-- The tokens' texts with a space before each. -/
def spaced (tokens : List Token) : List Char :=
  tokens.flatMap fun token => ' ' :: token.lexeme.toList

theorem shows_spaced (spelled : ∀ token ∈ tokens, Spelled token.kind token.lexeme.toList)
    (firstLine : ∀ token ∈ tokens, token.line = 1) : Shows (spaced tokens) tokens := by
  induction tokens with
  | nil => exact .none
  | cons token tokens ih =>
    have onward := ih (fun other member => spelled other (by simp [member]))
      fun other member => firstLine other (by simp [member])
    have divides : Divides (spaced tokens) := by
      cases tokens with
      | nil => simp [Divides, spaced]
      | cons => exact .of_mem (by decide)
    have shows := Shows.token (spelled token (by simp)) divides onward
    rw [String.ofList_toList, ← firstLine token (by simp)] at shows
    exact .space shows

end Scan

open Scan

theorem tokenize_shown {source : String} {tokens : List Token} (shows : Shows source.toList tokens) :
    tokenize source = .ok (tokens ++ [⟨.endOfInput, "", 1⟩]) := by
  obtain ⟨stop, last, munches, ends⟩ := shows.exists_munches List.not_mem_nil
  rw [tokenize_finished munches ends, lineAfter_unbroken shows.unbroken]

/-- Tokens of the first line are read back from a text that spaces them out. -/
theorem tokenize_spaced {tokens : List Token}
    (spelled : ∀ token ∈ tokens, Lexeme.Spelled token.kind token.lexeme.toList)
    (firstLine : ∀ token ∈ tokens, token.line = 1) :
    tokenize (String.ofList (Scan.spaced tokens)) = .ok (tokens ++ [⟨.endOfInput, "", 1⟩]) := by
  have shows := shows_spaced spelled firstLine
  rw [← String.toList_ofList (l := spaced tokens)] at shows
  exact tokenize_shown shows

end Scriptlet
