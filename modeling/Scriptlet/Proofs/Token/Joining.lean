import Mathlib.Data.List.Forall2
import Scriptlet.Proofs.Node.Lines
import Scriptlet.Proofs.Token.Scanning

/-! No token and no comment goes across the end of a line. So the tokens of lines that are joined are
those of the single lines, each on the line that it has come to. -/
namespace Scriptlet

/-- Items of one line after the other, those of each line moved down by the lines above it. -/
def stacked (move : Nat → α → α) (above : Nat) : List (List α) → List α
  | [] => []
  | line :: below => line.map (move above) ++ stacked move (above + 1) below

theorem length_le_stacked {move : Nat → α → α} {above : Nat} {lines : List (List α)} {line : List α}
    (member : line ∈ lines) : line.length ≤ (stacked move above lines).length := by
  induction lines generalizing above with
  | nil => cases member
  | cons first below ih =>
    rw [stacked, List.length_append, List.length_map]
    rcases List.mem_cons.mp member with rfl | isBelow
    · exact Nat.le_add_right _ _
    · exact Nat.le_add_left_of_le (ih isBelow)

namespace Lexeme

variable {gap more rest text lexeme word : List Char} {kind : Kind}

/-- A line feed ends a gap no later than the end of the text does. -/
theorem Gap.extend (between : Gap gap rest) (more : List Char) : Gap gap (rest ++ '\n' :: more) := by
  induction between with
  | none => exact .none
  | blank isBlank _ ih => exact .blank isBlank ih
  | @comment gap rest body unbroken ends _ ih =>
    refine .comment body unbroken (fun c first => ?_) ih
    rw [← List.append_assoc] at first
    cases whole : gap ++ rest with
    | nil => simpa [whole, eq_comm] using first
    | cons d tail =>
      rw [whole] at first ends
      exact ends c first

theorem Gap.append (between : Gap gap (more ++ rest)) (further : Gap more rest) :
    Gap (gap ++ more) rest := by
  generalize whole : more ++ rest = tail at between
  induction between with
  | none => exact further
  | blank isBlank _ ih => exact .blank isBlank (ih whole)
  | comment body unbroken ends _ ih =>
    subst whole
    rw [← List.append_assoc] at ends
    have longer := Gap.comment body unbroken ends (ih rfl)
    rwa [← List.append_assoc] at longer

/-- What is spelled stands within a line. -/
theorem Spelled.within_line (spelled : Spelled kind word) (starts : word <+: text ++ '\n' :: more) :
    word <+: text := by
  rcases List.prefix_or_prefix_of_prefix starts (List.prefix_append text _) with within | ⟨tail, rfl⟩
  · exact within
  · have tailStarts := List.prefix_append_right_inj text |>.mp starts
    cases tail with
    | nil => simp
    | cons c tail =>
      obtain ⟨rfl, -⟩ := List.cons_prefix_cons.mp tailStarts
      have dark := spelled.not_blank '\n' (by simp)
      cases dark

theorem Longest.extend (longest : Longest kind lexeme text) (more : List Char) :
    Longest kind lexeme (text ++ '\n' :: more) where
  spelled := longest.spelled
  starts := longest.starts.trans (List.prefix_append text _)
  most _ _ spelled starts := longest.most spelled (spelled.within_line starts)

theorem opensComment_extend (some : text ≠ []) (more : List Char) :
    opensComment (text ++ '\n' :: more) = opensComment text := by
  obtain ⟨c, rest, rfl⟩ := List.exists_cons_of_ne_nil some
  rw [List.cons_append, opensComment_cons, opensComment_cons]
  cases rest <;> simp

end Lexeme

namespace Scan

open Lexeme

variable {before text stop rest gap : List Char} {tokens : List Token}

/-- What comes after a line does not change its tokens. -/
theorem Munches.extend (munches : Munches before text tokens stop rest) (more : List Char) :
    Munches before (text ++ '\n' :: more) tokens stop (rest ++ '\n' :: more) := by
  induction munches with
  | here => exact .here
  | token between plain longest _ ih =>
    have nonempty := longest.starts.ne_nil longest.spelled.ne_nil
    have between := between.extend more
    have longest := longest.extend more
    rw [← opensComment_extend nonempty more] at plain
    rw [List.append_assoc] at between plain longest ⊢
    exact .token between plain longest ih

/-- What comes before a text only changes the lines that its tokens stand on. -/
theorem Munches.moved (munches : Munches before text tokens stop rest) (above : List Char) :
    Munches (above ++ before) text (tokens.map (·.mapLine (· + (above.count '\n' : Nat))))
      (above ++ stop) rest := by
  induction munches with
  | here => exact .here
  | @token gap lexeme tail kind before stop rest tokens between plain longest _ ih =>
    have line : lineAfter (above ++ before ++ gap) =
        lineAfter (before ++ gap) + (above.count '\n' : Nat) := by
      simp only [lineAfter, List.count_append]
      omega
    simp only [← List.append_assoc] at ih
    have step := Munches.token between plain longest ih
    rwa [line] at step

theorem Munches.append {middle last : List Char} {further : List Token}
    (munches : Munches before text tokens stop rest)
    (onward : Munches stop rest further middle last) :
    Munches before text (tokens ++ further) middle last := by
  induction munches with
  | here => exact onward
  | token between plain longest _ ih => exact .token between plain longest (ih onward)

/-- A text is cut into tokens up to its end, where only a gap is left. -/
def Cut (before text : List Char) (tokens : List Token) : Prop :=
  ∃ stop rest, Munches before text tokens stop rest ∧ Gap rest []

/-- A gap in front of a text belongs to the gap that the text starts with. -/
theorem Cut.widen (cut : Cut (before ++ gap) text tokens) (between : Gap gap text) :
    Cut before (gap ++ text) tokens := by
  obtain ⟨stop, rest, munches, ends⟩ := cut
  generalize start : before ++ gap = place at munches
  cases munches with
  | here => exact ⟨before, _, .here, .append (by simpa using between) ends⟩
  | @token inner lexeme tail kind _ _ _ tokens first plain longest onward =>
    subst start
    rw [List.append_assoc] at between
    simp only [List.append_assoc before] at onward
    have step := Munches.token (between.append first) plain longest (by simpa using onward)
    exact ⟨stop, rest, by simpa using step, ends⟩

theorem Cut.moved (cut : Cut before text tokens) (above : List Char) :
    Cut (above ++ before) text (tokens.map (·.mapLine (· + (above.count '\n' : Nat)))) := by
  obtain ⟨stop, rest, munches, ends⟩ := cut
  exact ⟨above ++ stop, rest, munches.moved above, ends⟩

/-- A line, and then the lines below it. -/
theorem Cut.above (cut : Cut before text tokens) {below : List Char} {further : List Token}
    (onward : Cut (before ++ text ++ ['\n']) below further) :
    Cut before (text ++ '\n' :: below) (tokens ++ further) := by
  obtain ⟨stop, rest, munches, ends⟩ := cut
  have closing : Gap (rest ++ ['\n']) below := .append (ends.extend below) (.blank rfl .none)
  rw [munches.whole, List.append_assoc] at onward
  obtain ⟨middle, last, after, ends⟩ := onward.widen closing
  rw [List.append_assoc, List.singleton_append] at after
  exact ⟨middle, last, (munches.extend below).append after, ends⟩

/-- The tokens of joined lines that have other lines above them. -/
theorem cut_joined {lines : List (List Char)} {bodies : List (List Token)}
    (cuts : List.Forall₂ (fun line body => '\n' ∉ line ∧ Cut [] line body) lines bodies)
    (above : List Char) :
    Cut above (['\n'].intercalate lines)
      (stacked (fun lines => Token.mapLine (· + (lines : Int))) (above.count '\n') bodies) := by
  induction cuts generalizing above with
  | nil => exact ⟨above, [], .here, .none⟩
  | @cons line body below bodies first rest ih =>
    obtain ⟨unbroken, cut⟩ := first
    have here := cut.moved above
    rw [List.append_nil] at here
    cases rest with
    | nil => simpa [stacked] using here
    | @cons next _ below =>
      have split : ['\n'].intercalate (line :: next :: below) =
          line ++ '\n' :: ['\n'].intercalate (next :: below) := by
        simp [List.intercalate_cons_cons]
      have lines : (above ++ line ++ ['\n']).count '\n' = above.count '\n' + 1 := by
        simp [List.count_eq_zero.mpr unbroken]
      have onward := ih (above ++ line ++ ['\n'])
      rw [lines] at onward
      rw [split]
      exact here.above onward

end Scan

open Scan Lexeme

/-- The tokens of a text are a cut of it and the end of the input. -/
theorem tokenize_eq_ok_iff {source : String} {tokens : List Token} : tokenize source = .ok tokens ↔
    ∃ body, Cut [] source.toList body ∧
      tokens = body ++ [⟨.endOfInput, "", lineAfter source.toList⟩] := by
  constructor
  · intro success
    obtain ⟨body, stop, rest, munches, finished | ⟨gap, c, stuck⟩⟩ := exists_munches [] source.toList
    · rw [tokenize_finished munches finished] at success
      cases success
      exact ⟨body, ⟨stop, rest, munches, finished⟩, rfl⟩
    · rw [tokenize_stuck munches stuck] at success
      cases success
  · rintro ⟨body, ⟨stop, rest, munches, finished⟩, rfl⟩
    exact tokenize_finished munches finished

/-- Lines are read one by one, also when they are joined. -/
theorem tokenize_joined {lines : List String} {bodies : List (List Token)}
    (cuts : List.Forall₂ (fun line body => '\n' ∉ line.toList ∧ Cut [] line.toList body) lines bodies) :
    ∃ last, tokenize ("\n".intercalate lines) =
      .ok (stacked (fun above => Token.mapLine (· + (above : Int))) 0 bodies ++
        [⟨.endOfInput, "", last⟩]) := by
  have whole := cut_joined (List.forall₂_map_left_iff.mpr cuts) []
  refine ⟨_, tokenize_eq_ok_iff.mpr ⟨_, ?_, rfl⟩⟩
  simpa [String.toList_intercalate] using whole

end Scriptlet
