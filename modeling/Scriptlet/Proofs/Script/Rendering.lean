import Scriptlet.Script

/-! What it takes for a tree to be rendered. -/
namespace Scriptlet.Script

variable {limits : Limits} {program : List Node} {renderer : List Node → Except RenderError α} {result : α}

/-- What can be rendered is rendered, unless its tree has more levels than the depth limit allows. -/
theorem render_of_ok (success : renderer program = .ok result) (limits : Limits) :
    render limits renderer program =
      if Node.fitAll limits.depth program then .ok result else .error (.render .depthExceeded) := by
  rw [render, Node.guardDepth, success]
  by_cases fits : Node.fitAll limits.depth program = true
  · rw [if_pos fits, if_pos fits]
  · rw [if_neg fits, if_neg fits]

theorem render_eq_ok (rendered : render limits renderer program = .ok result) :
    renderer program = .ok result := by
  unfold render at rendered
  split at rendered
  · cases rendered
  · split at rendered
    · cases rendered
    · cases rendered
      assumption

end Scriptlet.Script
