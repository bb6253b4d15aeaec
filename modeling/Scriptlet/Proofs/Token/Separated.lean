import Scriptlet.Proofs.Token.Joining
import Scriptlet.Proofs.Token.Spaced

/-! Tokens that are written one after the other, with blanks and comments between them, are read back,
each on the line that it stands on. So a source text may be laid out anew with single spaces. -/
namespace Scriptlet

namespace Lexeme

/-- Blanks and comments, of which every comment is ended by a line feed. -/
inductive Separator : List Char → Prop where
  | none : Separator []
  | blank (isBlank : Text.isBlank c) (more : Separator gap) : Separator (c :: gap)
  | comment (body : List Char) (unbroken : '\n' ∉ body) (more : Separator gap) :
      Separator ('/' :: '/' :: body ++ '\n' :: gap)

/-- Whatever comes after a separator, it is a gap. -/
theorem Separator.isGap (separator : Separator gap) (rest : List Char) : Gap gap rest := by
  induction separator with
  | none => exact .none
  | blank isBlank _ ih => exact .blank isBlank ih
  | comment body unbroken _ ih => exact .comment body unbroken (by simp) (.blank rfl ih)

/-- No blank carries a token on. -/
theorem Ended.of_blank {rest : List Char} (blank : ∀ c ∈ rest.head?, Text.isBlank c) : Ended rest := by
  intro c next
  have isBlank := blank c next
  refine ⟨?_, fun kind word spelled inside => ?_⟩
  · rintro rfl
    cases isBlank
  · have dark := spelled.not_blank c (List.mem_of_mem_tail inside)
    rw [dark] at isBlank
    cases isBlank

/-- The kind and the text of a token, and the separator after it. -/
structure Piece where
  kind : Kind
  lexeme : List Char
  gap : List Char

/-- The text is one that tokens of the kind have, and the separator does not start with a comment. -/
structure Piece.Sound (piece : Piece) : Prop where
  spelled : Spelled piece.kind piece.lexeme
  separator : Separator piece.gap
  blankFirst : ∀ c ∈ piece.gap.head?, Text.isBlank c

/-- The pieces one after the other. -/
def strung (pieces : List Piece) : List Char :=
  pieces.flatMap fun piece => piece.lexeme ++ piece.gap

/-- The tokens of the pieces, where they stand after the given text. -/
def placed (before : List Char) : List Piece → List Token
  | [] => []
  | piece :: rest =>
    ⟨piece.kind, String.ofList piece.lexeme, Scan.lineAfter before⟩ ::
      placed (before ++ piece.lexeme ++ piece.gap) rest

end Lexeme

namespace Scan

open Lexeme

variable {before lead : List Char} {pieces : List Piece}

theorem strung_ended {piece : Piece} (sound : piece.Sound)
    (apart : ∀ other ∈ (piece :: pieces).dropLast, other.gap ≠ []) :
    Ended (piece.gap ++ strung pieces) := by
  refine .of_blank fun c next => ?_
  cases whole : piece.gap with
  | cons d gap =>
    rw [whole] at next
    exact sound.blankFirst c (by simpa [whole] using next)
  | nil =>
    cases pieces with
    | nil => simp [whole, strung] at next
    | cons other pieces => exact absurd whole (apart piece (by simp))

/-- By induction on the pieces: what comes after a piece ends its token, and the separator after it is
the gap in front of the next one. -/
theorem cut_strung (separator : Separator lead) (sound : ∀ piece ∈ pieces, piece.Sound)
    (apart : ∀ piece ∈ pieces.dropLast, piece.gap ≠ []) :
    Cut before (lead ++ strung pieces) (placed (before ++ lead) pieces) := by
  induction pieces generalizing before lead with
  | nil => exact ⟨before, lead, by simpa [strung, placed] using .here, separator.isGap []⟩
  | cons piece pieces ih =>
    have here : piece.Sound := sound piece (by simp)
    have ended : Ended (piece.gap ++ strung pieces) := strung_ended here apart
    have onward : ∀ other ∈ pieces.dropLast, other.gap ≠ [] := by
      intro other listed
      cases pieces with
      | nil => cases listed
      | cons next pieces => exact apart other (List.mem_cons_of_mem _ listed)
    have others : ∀ other ∈ pieces, other.Sound := fun other listed => sound other (by simp [listed])
    obtain ⟨stop, rest, munches, ends⟩ : Cut (before ++ lead ++ piece.lexeme)
        (piece.gap ++ strung pieces) (placed (before ++ lead ++ piece.lexeme ++ piece.gap) pieces) :=
      ih here.separator others onward
    have read := Munches.token (separator.isGap _) (opensComment_ended here.spelled ended)
      (.of_ended here.spelled ended) munches
    exact ⟨stop, rest, by simpa [strung, placed] using read, ends⟩

/-- The pieces of tokens with a space between each two of them, and the given text after the last. -/
def singleSpaced (final : List Char) : List Token → List Piece
  | [] => []
  | [token] => [⟨token.kind, token.lexeme.toList, final⟩]
  | token :: next :: rest =>
    ⟨token.kind, token.lexeme.toList, [' ']⟩ :: singleSpaced final (next :: rest)

variable {final : List Char} {tokens : List Token}

theorem singleSpaced_sound (spelled : ∀ token ∈ tokens, Spelled token.kind token.lexeme.toList)
    (separator : Separator final) (blankFirst : ∀ c ∈ final.head?, Text.isBlank c) :
    ∀ piece ∈ singleSpaced final tokens, piece.Sound := by
  induction tokens with
  | nil => simp [singleSpaced]
  | cons token tokens ih =>
    have here := spelled token (by simp)
    have more := ih fun other listed => spelled other (by simp [listed])
    cases tokens with
    | nil =>
      intro piece listed
      cases List.mem_singleton.mp listed
      exact ⟨here, separator, blankFirst⟩
    | cons next tokens =>
      have spaced : Piece.Sound ⟨token.kind, token.lexeme.toList, [' ']⟩ :=
        ⟨here, .blank rfl .none, by simp [Text.isBlank]⟩
      exact List.forall_mem_cons.mpr ⟨spaced, more⟩

theorem singleSpaced_apart : ∀ piece ∈ (singleSpaced final tokens).dropLast, piece.gap ≠ [] := by
  induction tokens with
  | nil => simp [singleSpaced]
  | cons token tokens ih =>
    cases tokens with
    | nil => simp [singleSpaced]
    | cons next tokens =>
      have more : singleSpaced final (next :: tokens) ≠ [] := by cases tokens <;> simp [singleSpaced]
      rw [singleSpaced, List.dropLast_cons_of_ne_nil more]
      exact List.forall_mem_cons.mpr ⟨List.cons_ne_nil _ _, ih⟩

theorem strung_singleSpaced (some : tokens ≠ []) : strung (singleSpaced final tokens) =
    (" ".intercalate (tokens.map Token.lexeme)).toList ++ final := by
  induction tokens with
  | nil => exact absurd rfl some
  | cons token tokens ih =>
    cases tokens with
    | nil => simp [singleSpaced, strung]
    | cons next tokens =>
      have more := ih (List.cons_ne_nil _ _)
      simp only [strung, singleSpaced, List.flatMap_cons] at more ⊢
      rw [more]
      simp [String.toList_intercalate]

/-- An empty text that is joined to others puts a space behind them. -/
theorem intercalate_empty {texts : List String} (some : texts ≠ []) :
    (" ".intercalate (texts ++ [""])).toList = (" ".intercalate texts).toList ++ [' '] := by
  induction texts with
  | nil => exact absurd rfl some
  | cons text texts ih =>
    cases texts with
    | nil => simp
    | cons next texts =>
      have more := ih (List.cons_ne_nil _ _)
      simp only [String.toList_intercalate, List.cons_append, List.map_cons,
        List.intercalate_cons_cons, List.append_assoc] at more ⊢
      rw [more]

theorem strung_unbroken (spelled : ∀ token ∈ tokens, Spelled token.kind token.lexeme.toList)
    (unbroken : '\n' ∉ final) : '\n' ∉ strung (singleSpaced final tokens) := by
  have dark : ∀ token ∈ tokens, '\n' ∉ token.lexeme.toList := by
    intro token listed inside
    cases (spelled token listed).not_blank _ inside
  induction tokens with
  | nil => simp [singleSpaced, strung]
  | cons token tokens ih =>
    cases tokens with
    | nil => simpa [singleSpaced, strung, unbroken] using dark
    | cons next tokens =>
      have more := ih (fun other listed => spelled other (by simp [listed]))
        fun other listed => dark other (by simp [listed])
      have here := dark token (by simp)
      simp only [strung, singleSpaced, List.flatMap_cons] at more ⊢
      simpa [here] using more

/-- There is no line feed among single spaces, so that all tokens come to stand on the first line. -/
theorem placed_singleSpaced (spelled : ∀ token ∈ tokens, Spelled token.kind token.lexeme.toList)
    (unbroken : '\n' ∉ before) :
    placed before (singleSpaced final tokens) = tokens.map (·.mapLine fun _ => 1) := by
  induction tokens generalizing before with
  | nil => rfl
  | cons token tokens ih =>
    have dark : '\n' ∉ token.lexeme.toList := by
      intro inside
      cases (spelled token (by simp)).not_blank _ inside
    cases tokens with
    | nil => simp [singleSpaced, placed, Token.mapLine, lineAfter_unbroken unbroken]
    | cons next tokens =>
      have onward : '\n' ∉ before ++ token.lexeme.toList ++ [' '] := by simp [unbroken, dark]
      rw [singleSpaced, placed, ih (fun other listed => spelled other (by simp [listed])) onward,
        lineAfter_unbroken unbroken, String.ofList_toList]
      rfl

end Scan

open Scan Lexeme

/-- Tokens that are written with separators before, between and after them are read back, each with one
more than the number of line feeds before it as its line. Where two tokens meet, the separator is not
empty, and no separator after a token starts with a comment. In particular the texts of the tokens of
a source, joined by single spaces, have the same tokens on one line; it makes no difference whether
the empty text of the end is joined with them. -/
theorem tokenize_separated :
    (∀ lead pieces, Separator lead → (∀ piece ∈ pieces, Piece.Sound piece) →
      (∀ piece ∈ pieces.dropLast, piece.gap ≠ []) →
      tokenize (String.ofList (lead ++ strung pieces)) = .ok
        (placed lead pieces ++ [⟨.endOfInput, "", lineAfter (lead ++ strung pieces)⟩])) ∧
    ∀ source tokens, tokenize source = .ok tokens →
      tokenize (" ".intercalate (tokens.map Token.lexeme)) =
          .ok (tokens.map (·.mapLine fun _ => 1)) ∧
        tokenize (" ".intercalate (tokens.dropLast.map Token.lexeme)) =
          .ok (tokens.map (·.mapLine fun _ => 1)) := by
  have separated : ∀ lead pieces, Separator lead → (∀ piece ∈ pieces, Piece.Sound piece) →
      (∀ piece ∈ pieces.dropLast, piece.gap ≠ []) →
      tokenize (String.ofList (lead ++ strung pieces)) = .ok
        (placed lead pieces ++ [⟨.endOfInput, "", lineAfter (lead ++ strung pieces)⟩]) := by
    intro lead pieces separator sound apart
    have cut : Cut [] (lead ++ strung pieces) (placed lead pieces) := cut_strung separator sound apart
    exact tokenize_eq_ok_iff.mpr ⟨_, by simpa using cut, by simp⟩
  refine ⟨separated, fun source tokens success => ?_⟩
  obtain ⟨body, ending, split, -, spelled⟩ := tokenize_tokens success
  obtain ⟨cut, -, rfl⟩ := tokenize_eq_ok_iff.mp success
  obtain ⟨rfl, -⟩ := List.append_inj' split rfl
  let last : Token := ⟨.endOfInput, "", lineAfter source.toList⟩
  have read : ∀ final, Separator final → '\n' ∉ final → (∀ c ∈ final.head?, Text.isBlank c) →
      tokenize (String.ofList (strung (singleSpaced final cut))) =
        .ok ((cut ++ [last]).map (·.mapLine fun _ => 1)) := by
    intro final separator unbroken blankFirst
    have spaced := separated [] (singleSpaced final cut) .none
      (singleSpaced_sound spelled separator blankFirst) singleSpaced_apart
    rw [placed_singleSpaced spelled List.not_mem_nil] at spaced
    have line : lineAfter (strung (singleSpaced final cut)) = 1 :=
      lineAfter_unbroken (strung_unbroken spelled unbroken)
    simpa [last, Token.mapLine, line] using spaced
  rw [List.dropLast_concat, List.map_append]
  by_cases none : cut = []
  · subst none
    have nothing := read [] .none List.not_mem_nil (by simp)
    exact ⟨nothing, nothing⟩
  · have space := read [' '] (.blank rfl .none) (by decide) (by simp [Text.isBlank])
    have nothing := read [] .none List.not_mem_nil (by simp)
    rw [strung_singleSpaced none] at space nothing
    have texts : cut.map Token.lexeme ≠ [] := by simpa using none
    rw [← intercalate_empty texts, String.ofList_toList] at space
    rw [List.append_nil, String.ofList_toList] at nothing
    exact ⟨space, nothing⟩

/-- A slash before a comment, an equals sign before a greater sign, and a name that a keyword starts. -/
theorem tokenize_separated_comments :
    let tokens : List Token := [⟨.slash, "/", 2⟩, ⟨.assign, "=", 3⟩, ⟨.greater, ">", 3⟩,
      ⟨.number, "1", 4⟩, ⟨.identifier, "iffy", 4⟩, ⟨.endOfInput, "", 5⟩]
    tokenize "//\n/ //=\n=\t>\r\n1 iffy\n" = .ok tokens ∧
      tokenize "/ = > 1 iffy " = .ok (tokens.map (·.mapLine fun _ => 1)) ∧
      tokenize "/ = > 1 iffy" = .ok (tokens.map (·.mapLine fun _ => 1)) := by
  intro tokens
  let pieces : List Piece := [⟨.slash, ['/'], [' ', '/', '/', '=', '\n']⟩, ⟨.assign, ['='], ['\t']⟩,
    ⟨.greater, ['>'], ['\r', '\n']⟩, ⟨.number, ['1'], [' ']⟩,
    ⟨.identifier, ['i', 'f', 'f', 'y'], ['\n']⟩]
  have number : Spelled .number (numeral ['1'] []) := .number (by decide) (List.all_eq_true.mp (by decide))
  have name : Spelled (Kind.ofWord "iffy") ['i', 'f', 'f', 'y'] :=
    .word (by decide +kernel) (List.all_eq_true.mp (by decide +kernel))
  have blank : ∀ c, Text.isBlank c → Separator [c] := fun c isBlank => .blank isBlank .none
  have comment : Separator [' ', '/', '/', '=', '\n'] := .blank rfl (.comment ['='] (by decide) .none)
  have sound : ∀ piece ∈ pieces, piece.Sound := by
    simp only [pieces, List.forall_mem_cons]
    have first : ∀ c gap, Text.isBlank c → ∀ d ∈ (c :: gap).head?, Text.isBlank d := by simp
    exact ⟨⟨.mark (by decide), comment, first ' ' _ rfl⟩, ⟨.mark (by decide), blank _ rfl, first '\t' _ rfl⟩,
      ⟨.mark (by decide), .blank rfl (blank _ rfl), first '\r' _ rfl⟩, ⟨number, blank _ rfl, first ' ' _ rfl⟩,
      ⟨name, blank _ rfl, first '\n' _ rfl⟩, List.forall_mem_nil _⟩
  have read := tokenize_separated.1 ['/', '/', '\n'] pieces (.comment [] (by decide) .none) sound (by decide)
  have again := tokenize_separated.2 _ _ read
  exact ⟨read, again⟩

end Scriptlet
