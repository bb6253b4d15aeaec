import Scriptlet.Proofs.Number.Reading

/-! What stands at the front of a text: a gap of blanks and comments, and after it the longest text
that a token can be written with. Both are described by the characters alone, and the lengths that
scanning computes are shown to be theirs. -/
namespace Scriptlet.Lexeme

theorem blank_splits (blank : Text.isBlank c) :
    isWordChar c = false ∧ Text.isLetter c = false ∧ Number.isPlain c = false := by
  simp only [Text.isBlank, Bool.or_eq_true, beq_iff_eq] at blank
  rcases blank with ((rfl | rfl) | rfl) | rfl <;> decide

theorem not_digit_of_letter (letter : Text.isLetter c) : Text.isDigit c = false := by
  apply Bool.eq_false_iff.mpr
  intro digit
  have size := (Number.isDigit_iff c).mp digit
  obtain ⟨range, listed, above, below⟩ := Text.inRanges_sound letter
  have apart : ∀ range ∈ Text.letterRanges, 57 < range.1 := by decide +kernel
  have := apart range listed
  omega

theorem Spelled.not_blank (spelled : Spelled kind text) : ∀ c ∈ text, Text.isBlank c = false := by
  intro c member
  apply Bool.eq_false_iff.mpr
  intro blank
  obtain ⟨notWord, notLetter, notPlain⟩ := blank_splits blank
  cases spelled with
  | mark listed =>
    have dark : ∀ mark ∈ marks, mark.1.all fun c => !Text.isBlank c := by decide
    have notBlank := List.all_eq_true.mp (dark _ listed) c member
    simp [blank] at notBlank
  | number _ digits => simp [Number.numeral_plain digits c member] at notPlain
  | word letter each =>
    rcases List.mem_cons.mp member with rfl | inside
    · simp [letter] at notLetter
    · simp [each c inside] at notWord

/-- No mark starts with a digit or a letter. -/
theorem mark?_none (other : Text.isDigit first ∨ Text.isLetter first) :
    mark? (first :: rest) = none := by
  have nonempty : ∀ mark ∈ marks, mark.1 ≠ [] := by decide
  have starts : ∀ mark ∈ marks,
      mark.1.head?.all fun c => !(Text.isDigit c || Text.isLetter c) := by decide
  rw [mark?, List.find?_eq_none.mpr, Option.map_none]
  intro mark listed found
  obtain ⟨c, tail, split⟩ := List.exists_cons_of_ne_nil (nonempty mark listed)
  have outside := starts mark listed
  rw [split] at outside found
  rw [List.isPrefixOf_cons_cons, Bool.and_eq_true, beq_iff_eq] at found
  rw [← found.1] at other
  rw [← Bool.or_eq_true] at other
  rw [List.head?_cons, Option.all_some, other] at outside
  cases outside

/-- A token that is a whole text. -/
theorem front?_alone (spelled : Spelled kind text) : front? text = some (kind, text.length) := by
  cases spelled with
  | mark listed =>
    have alone : ∀ mark ∈ marks, mark? mark.1 = some (mark.2, mark.1.length) := by decide
    simp [front?, alone _ listed]
  | @number whole fraction some digits =>
    have length : numberLength (numeral whole fraction) = (numeral whole fraction).length := by
      have ends : NumeralEnds fraction [] := ⟨by simp, by simp⟩
      simpa using numberLength_numeral digits ends
    obtain ⟨first, rest, rfl⟩ := List.exists_cons_of_ne_nil some
    have digit : Text.isDigit first := digits first (by simp)
    simp only [numeral, List.cons_append] at length ⊢
    simp only [front?, mark?_none (.inl digit), digit, if_true, length]
  | @word first rest letter each =>
    have length : wordLength (first :: rest ++ []) = (first :: rest).length :=
      wordLength_run each (by simp)
    rw [List.append_nil] at length
    simp only [front?, mark?_none (.inr letter), not_digit_of_letter letter, letter, if_true, length]
    rw [List.take_length]
    rfl

theorem Spelled.slash_alone (spelled : Spelled kind text) (slash : text.head? = some '/') :
    text = ['/'] := by
  cases spelled with
  | mark listed =>
    have alone : ∀ mark ∈ marks, mark.1.head? = some '/' → mark.1 = ['/'] := by decide
    exact alone _ listed slash
  | @number whole fraction some digits =>
    obtain ⟨first, rest, rfl⟩ := List.exists_cons_of_ne_nil some
    have digit : Text.isDigit first := digits first (by simp)
    cases slash
    cases digit
  | word letter =>
    cases slash
    cases letter

/-- `Gap gap rest`: blanks and comments, in front of `rest`. A comment starts with two slashes and
runs up to a line feed or the end of the text. -/
inductive Gap : (gap rest : List Char) → Prop where
  | none : Gap [] rest
  | blank (isBlank : Text.isBlank c) (more : Gap gap rest) : Gap (c :: gap) rest
  | comment (body : List Char) (unbroken : '\n' ∉ body)
      (ends : ∀ c ∈ (gap ++ rest).head?, c = '\n') (more : Gap gap rest) :
      Gap ('/' :: '/' :: body ++ gap) rest

/-- The longest text of a token that a text starts with, and the kind of that token. -/
structure Longest (kind : Kind) (lexeme text : List Char) : Prop where
  spelled : Spelled kind lexeme
  starts : lexeme <+: text
  most : ∀ ⦃other word⦄, Spelled other word → word <+: text → word.length ≤ lexeme.length

/-- A comment starts here. -/
def opensComment (text : List Char) : Bool :=
  ['/', '/'].isPrefixOf text

/-- A character that is no blank and that no token starts with. -/
def isUnreadable (c : Char) : Bool :=
  !(Text.isBlank c || Text.isDigit c || Text.isLetter c || marks.any fun mark => mark.1.contains c)

/-- Neither a blank nor a comment comes next. -/
def Settled (rest : List Char) : Prop :=
  (∀ c ∈ rest.head?, Text.isBlank c = false) ∧ opensComment rest = false

section Gaps

variable {gap rest text body tail : List Char} {passed : Nat}

theorem opensComment_cons (c : Char) (rest : List Char) :
    opensComment (c :: rest) = (c == '/' && rest.head? == some '/') := by
  have flip : ∀ d : Char, ('/' == d) = (d == '/') := fun d => Bool.beq_comm
  cases rest with
  | nil => simp [opensComment, List.isPrefixOf]
  | cons d rest => simp [opensComment, List.isPrefixOf, flip]

/-- The body of a comment is passed over, up to what ends it. -/
theorem gapLength_comment (unbroken : '\n' ∉ body) (ends : ∀ c ∈ tail.head?, c = '\n') :
    gapLength true passed (body ++ tail) = gapLength false (passed + body.length) tail := by
  induction body generalizing passed with
  | nil =>
    cases tail with
    | nil => rfl
    | cons c tail =>
      cases ends c rfl
      rfl
  | cons c body ih =>
    have more : c ≠ '\n' := fun same => unbroken (by simp [same])
    rw [List.cons_append, gapLength, if_pos rfl, bne_iff_ne.mpr more,
      ih fun member => unbroken (by simp [member]), List.length_cons]
    congr 1
    omega

/-- The gap that scanning skips is the one in front of the next token. -/
theorem Gap.length (between : Gap gap rest) (settled : Settled rest) :
    gapLength false passed (gap ++ rest) = passed + gap.length := by
  induction between generalizing passed with
  | none =>
    rename_i rest
    cases rest with
    | nil => rfl
    | cons c rest =>
      have noComment := settled.2
      rw [opensComment_cons] at noComment
      rw [List.nil_append, gapLength, settled.1 c rfl, noComment]
      rfl
  | blank isBlank more ih =>
    rw [List.cons_append, gapLength, isBlank, ih settled, List.length_cons]
    simp only [Bool.false_eq_true, ↓reduceIte]
    omega
  | comment body unbroken ends more ih =>
    rename_i gap rest
    have inside : '\n' ∉ '/' :: body := by simpa using unbroken
    have opened : gapLength false passed ('/' :: ('/' :: body ++ (gap ++ rest))) =
        gapLength true (passed + 1) ('/' :: body ++ (gap ++ rest)) := rfl
    have whole : '/' :: '/' :: body ++ gap ++ rest = '/' :: ('/' :: body ++ (gap ++ rest)) := by simp
    rw [whole, opened, gapLength_comment inside ends, ih settled]
    simp only [List.length_append, List.length_cons]
    omega

/-- Every text is a gap and what comes after it. -/
theorem exists_gap (text : List Char) : ∃ gap rest, text = gap ++ rest ∧ Gap gap rest ∧ Settled rest := by
  generalize size : text.length = count
  induction count using Nat.strongRecOn generalizing text with
  | ind count shorter =>
    cases text with
    | nil => exact ⟨[], [], rfl, .none, by simp, rfl⟩
    | cons c text =>
      rw [List.length_cons] at size
      by_cases blank : Text.isBlank c
      · obtain ⟨gap, rest, rfl, between, settled⟩ := shorter text.length (by omega) text rfl
        exact ⟨c :: gap, rest, rfl, .blank blank between, settled⟩
      · by_cases opens : opensComment (c :: text)
        · obtain ⟨after, split⟩ := List.isPrefixOf_iff_prefix.mp opens
          obtain ⟨body, tail, rfl, each, ends⟩ := exists_run (· != '\n') after
          obtain ⟨rfl, rfl⟩ := List.cons.inj split
          have whole : (['/'] ++ (body ++ tail)).length + 1 = count := size
          have room : tail.length < count := by
            simp only [List.length_append] at whole
            omega
          obtain ⟨gap, rest, rfl, between, settled⟩ := shorter tail.length room tail rfl
          refine ⟨'/' :: '/' :: body ++ gap, rest, by simp, .comment body ?_ ?_ between, settled⟩
          · intro member
            have kept := each _ member
            simp at kept
          · intro d starts
            have stopped := ends d starts
            simpa using stopped
        · refine ⟨[], c :: text, rfl, .none, ?_, Bool.eq_false_iff.mpr opens⟩
          simpa using blank

end Gaps

section Tokens

variable {kind other : Kind} {lexeme word text rest : List Char} {c : Char} {length : Nat}

theorem length_le_digitRun {whole : List Char} (digits : ∀ c ∈ whole, Text.isDigit c)
    (tail : List Char) : whole.length ≤ digitRun (whole ++ tail) := by
  rw [digitRun, List.takeWhile_append_of_pos digits, List.length_append]
  omega

theorem length_le_numberLength {whole fraction : List Char}
    (digits : ∀ c ∈ whole ++ fraction, Text.isDigit c) (tail : List Char) :
    (numeral whole fraction).length ≤ numberLength (numeral whole fraction ++ tail) := by
  have wholeDigits : ∀ c ∈ whole, Text.isDigit c := fun c member => digits c (by simp [member])
  by_cases none : fraction = []
  · have covers := length_le_digitRun wholeDigits tail
    simp only [numeral, none, ↓reduceIte, List.append_nil, numberLength]
    split
    · split <;> omega
    · exact covers
  · have fractionDigits : ∀ c ∈ fraction, Text.isDigit c :=
      fun c member => digits c (by simp [member])
    have covers := length_le_digitRun fractionDigits tail
    have some : 0 < fraction.length := List.length_pos_iff.mpr none
    have point : ∀ c ∈ ('.' :: (fraction ++ tail)).head?, Text.isDigit c = false := by
      simp [Text.isDigit]
    simp only [numeral, if_neg none, List.append_assoc, List.cons_append, numberLength,
      digitRun_run wholeDigits point, List.drop_left, List.length_append, List.length_cons]
    rw [if_neg (by omega)]
    omega

/-- Marks are tried in the order of their lengths, the longest first. -/
theorem mark?_covers (listed : (word, kind) ∈ marks) (tail : List Char) :
    ∃ found length, mark? (word ++ tail) = some (found, length) ∧ word.length ≤ length := by
  have matching : (word, kind).1.isPrefixOf (word ++ tail) :=
    List.isPrefixOf_iff_prefix.mpr (List.prefix_append word tail)
  cases search : marks.find? fun mark => mark.1.isPrefixOf (word ++ tail) with
  | none => exact absurd matching (List.find?_eq_none.mp search _ listed)
  | some mark =>
    refine ⟨mark.2, mark.1.length, by rw [mark?, search]; rfl, ?_⟩
    obtain ⟨-, earlier, later, split, unmatched⟩ := List.find?_eq_some_iff_append.mp search
    have descending : marks.Pairwise fun one two => two.1.length ≤ one.1.length := by decide
    rw [split] at listed descending
    rcases List.mem_append.mp listed with isEarlier | fromHere
    · simpa [matching] using unmatched _ isEarlier
    · rcases List.mem_cons.mp fromHere with rfl | isLater
      · exact Nat.le_refl _
      · exact List.rel_of_pairwise_cons (List.pairwise_append.mp descending).2.1 isLater

/-- Where a token is written, scanning finds one that is no shorter. -/
theorem Spelled.covered (spelled : Spelled kind word) (tail : List Char) :
    ∃ found length, front? (word ++ tail) = some (found, length) ∧ word.length ≤ length := by
  cases spelled with
  | mark listed =>
    obtain ⟨found, length, marked, covers⟩ := mark?_covers listed tail
    exact ⟨found, length, by simp [front?, marked], covers⟩
  | @number whole fraction some digits =>
    have covers := length_le_numberLength digits tail
    obtain ⟨first, rest, rfl⟩ := List.exists_cons_of_ne_nil some
    have digit : Text.isDigit first := digits first (by simp)
    refine ⟨.number, numberLength (numeral (first :: rest) fraction ++ tail), ?_, covers⟩
    simp only [numeral, List.cons_append, front?, mark?_none (.inl digit), digit, if_true]
  | @word first rest letter each =>
    have length : (first :: rest).length ≤ wordLength (first :: rest ++ tail) := by
      simp only [wordLength, List.cons_append, List.drop_succ_cons, List.drop_zero,
        List.takeWhile_append_of_pos each, List.length_append, List.length_cons]
      omega
    have scanned := front?.eq_def (first :: rest ++ tail)
    simp only [List.cons_append, mark?_none (.inr letter), not_digit_of_letter letter, letter,
      Bool.false_eq_true, if_true, if_false] at scanned
    exact ⟨_, _, scanned, length⟩

/-- The kind of a token is determined by its text. -/
theorem Spelled.kind_unique (spelled : Spelled kind word) (again : Spelled other word) :
    kind = other := by
  have first := front?_alone spelled
  rw [front?_alone again] at first
  exact (congrArg Prod.fst (Option.some.inj first)).symm

theorem front?_length_le (found : front? text = some (kind, length)) : length ≤ text.length := by
  unfold front? at found
  split at found
  · rename_i marked
    cases found
    obtain ⟨mark, search, same⟩ := Option.map_eq_some_iff.mp marked
    cases same
    have starts := List.find?_some search
    exact (List.isPrefixOf_iff_prefix.mp starts).length_le
  · cases found
  · rename_i first rest _
    split at found
    · cases found
      obtain ⟨whole, fraction, tail, split, digits, ends⟩ := exists_numeral (first :: rest)
      rw [split, numberLength_numeral digits ends, List.length_append]
      omega
    · split at found
      · cases found
        have short := (List.takeWhile_prefix (l := rest) isWordChar).length_le
        rw [wordLength, List.drop_one, List.tail_cons, List.length_cons]
        omega
      · cases found

/-- Scanning takes the longest token there is. -/
theorem front?_longest (found : front? text = some (kind, length)) :
    Longest kind (text.take length) text ∧ (text.take length).length = length := by
  have fits := List.length_take_of_le (front?_length_le found)
  refine ⟨⟨front?_spelled found, List.take_prefix length text, ?_⟩, fits⟩
  rintro other word spelled ⟨tail, rfl⟩
  obtain ⟨_, _, again, covers⟩ := spelled.covered tail
  rw [found] at again
  cases again
  rwa [fits]

theorem Longest.unique (longest : Longest kind lexeme text) (again : Longest other word text) :
    lexeme = word ∧ kind = other := by
  have shorter := again.most longest.spelled longest.starts
  have longer := longest.most again.spelled again.starts
  have same : lexeme = word :=
    (List.prefix_of_prefix_length_le longest.starts again.starts shorter).eq_of_length (by omega)
  subst same
  exact ⟨rfl, longest.spelled.kind_unique again.spelled⟩

theorem Longest.front? (longest : Longest kind lexeme text) :
    front? text = some (kind, lexeme.length) := by
  obtain ⟨tail, rfl⟩ := longest.starts
  obtain ⟨found, length, scanned, -⟩ := longest.spelled.covered tail
  obtain ⟨same, fits⟩ := front?_longest scanned
  obtain ⟨taken, rfl⟩ := longest.unique same
  rw [scanned, ← fits, ← taken]

/-- No gap starts where a token does, unless it is a slash that opens a comment. -/
theorem Longest.settled (longest : Longest kind lexeme text) (plain : opensComment text = false) :
    Settled text := by
  refine ⟨?_, plain⟩
  intro c first
  obtain ⟨tail, rfl⟩ := longest.starts
  obtain ⟨start, rest, rfl⟩ := List.exists_cons_of_ne_nil longest.spelled.ne_nil
  cases first
  exact longest.spelled.not_blank c (by simp)

theorem isUnreadable_iff : isUnreadable c ↔ Text.isBlank c = false ∧ Text.isDigit c = false ∧
    Text.isLetter c = false ∧ ∀ mark ∈ marks, c ∉ mark.1 := by
  simp [isUnreadable, and_assoc]

/-- Scanning gets stuck exactly at the unreadable characters. -/
theorem front?_none_iff (dark : Text.isBlank c = false) :
    front? (c :: rest) = none ↔ isUnreadable c := by
  rw [isUnreadable_iff]
  constructor
  · intro stuck
    have unspelled : ∀ {kind}, ¬ Spelled kind [c] := by
      intro kind spelled
      obtain ⟨_, _, found, -⟩ := spelled.covered rest
      rw [List.singleton_append, stuck] at found
      cases found
    refine ⟨dark, ?_, ?_, ?_⟩
    · refine Bool.eq_false_iff.mpr fun digit => ?_
      have spelled : Spelled .number (numeral [c] []) := .number (by simp) (by simpa using digit)
      exact unspelled spelled
    · exact Bool.eq_false_iff.mpr fun letter => unspelled (.word letter (by simp))
    · intro mark listed member
      have singles : ∀ mark ∈ marks, mark.1.all fun d => (marks.map Prod.fst).contains [d] := by decide
      have single : [c] ∈ marks.map Prod.fst := by
        simpa using List.all_eq_true.mp (singles mark listed) c member
      obtain ⟨⟨_, kind⟩, relisted, rfl⟩ := List.mem_map.mp single
      exact unspelled (.mark relisted)
  · rintro ⟨-, notDigit, notLetter, unmarked⟩
    have noMark : mark? (c :: rest) = none := by
      rw [mark?, List.find?_eq_none.mpr, Option.map_none]
      intro mark listed found
      obtain ⟨start, tail, split⟩ := List.exists_cons_of_ne_nil (Spelled.mark listed).ne_nil
      rw [split, List.isPrefixOf_cons_cons, Bool.and_eq_true, beq_iff_eq] at found
      exact unmarked mark listed (by simp [split, found.1])
    simp [front?, noMark, notDigit, notLetter]

end Tokens

end Scriptlet.Lexeme
