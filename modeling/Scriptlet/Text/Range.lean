/-! Tables of code points, written as ascending inclusive ranges. -/
namespace Scriptlet.Text

/-- Whether a code point lies in one of the ranges. They ascend, so a range that starts above the
code point ends the search. -/
def inRanges : List (Nat × Nat) → Nat → Bool
  | [], _ => false
  | (low, high) :: rest, point =>
    if point < low then false else if point ≤ high then true else inRanges rest point

theorem inRanges_sound {ranges : List (Nat × Nat)} {point : Nat}
    (inside : inRanges ranges point = true) :
    ∃ range ∈ ranges, range.1 ≤ point ∧ point ≤ range.2 := by
  induction ranges with
  | nil => simp [inRanges] at inside
  | cons range rest step =>
    obtain ⟨low, high⟩ := range
    simp only [inRanges] at inside
    split at inside
    · contradiction
    · split at inside
      · exact ⟨(low, high), by simp, by omega, by omega⟩
      · obtain ⟨found, member, bounds⟩ := step inside
        exact ⟨found, by simp [member], bounds⟩

end Scriptlet.Text
