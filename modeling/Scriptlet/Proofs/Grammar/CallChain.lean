import Scriptlet.Node
import Scriptlet.Proofs.Grammar.ShallowReading

/-! Chains of calls. The parser reads a chain with a loop, so that a small depth limit is enough for
chains of any length; but the tree of a chain is as deep as the chain is long. -/
namespace Scriptlet.Grammar

open Phrase

variable {turns : Nat}

def opener : Token :=
  ⟨.leftParen, "(", 1⟩

def closer : Token :=
  ⟨.rightParen, ")", 1⟩

/-- The tokens of `f()()…()` with so many calls. -/
def chainTokens : Nat → List Token
  | 0 => [⟨.identifier, "f", 1⟩]
  | calls + 1 => chainTokens calls ++ [opener, closer]

def chainNode : Nat → Node
  | 0 => .reference 1 "f"
  | calls + 1 => .call 1 (chainNode calls) []

theorem chainNode_fits (calls room : Nat) : (chainNode calls).fits room = decide (calls < room) := by
  induction calls generalizing room with
  | zero => cases room <;> simp [chainNode, Node.fits]
  | succ calls ih => cases room <;> simp [chainNode, Node.fits, Node.fitAll, ih]

theorem chainTokens_written (calls : Nat) : Written (chainTokens calls) := by
  induction calls with
  | zero => exact .name (by decide +kernel) .nil
  | succ calls ih => exact ih.append (.cons (.mark (by decide)) (.cons (.mark (by decide)) .nil))

theorem chain_derives (calls : Nat) : Derives .call false (chainTokens calls) (chainNode calls) := by
  induction calls with
  | zero => exact .alternative (by decide) (.reference rfl)
  | succ calls ih =>
    have opens : opener.kind = .leftParen := rfl
    have closes : closer.kind = .rightParen := rfl
    have call : Derives .call false (chainTokens calls ++ opener :: [] ++ [closer])
      (.call opener.line (chainNode calls) []) := .call ih opens [] (by simp) .none closes
    simpa [chainTokens, chainNode, opener] using call

/-- One turn of the loop for each call: the depth does not grow with the chain. -/
theorem chain_reaches (depth calls : Nat) :
    Reaches turns (callBody (parseWithin turns (depth + 1)) turns)
      (callRest (parseWithin turns (depth + 1)) turns) (Stops .primary false) (chainTokens calls)
      (chainNode calls) := by
  induction calls with
  | zero => exact call_starts (reference_reads rfl)
  | succ calls ih =>
    have opens : opener.kind = .leftParen := rfl
    have closes : closer.kind = .rightParen := rfl
    have derivations : ∀ part ∈ ([] : List (List Token × Node)),
        Derives .expression false part.1 part.2 := by simp
    have reads : ∀ part ∈ ([] : List (List Token × Node)),
        Reads turns (parseWithin turns (depth + 1) .expression) (Stops .expression false) part.1
          part.2 := by simp
    have continued : Reaches turns (callBody (parseWithin turns (depth + 1)) turns)
        (callRest (parseWithin turns (depth + 1)) turns) (Stops .primary false)
        (chainTokens calls ++ opener :: [] ++ [closer]) (.call opener.line (chainNode calls) []) :=
      call_continues ih opens derivations reads .none closes
    simpa [chainTokens, chainNode, opener] using continued

theorem chain_read (turns calls : Nat) :
    ReadFrom turns 8 .expression (chainTokens calls) (chainNode calls) := by
  have call : ReadFrom turns 1 .call (chainTokens calls) (chainNode calls) := by
    refine ⟨chain_derives calls, fun depth enough => ?_⟩
    obtain ⟨depth, rfl⟩ := Nat.exists_eq_add_of_le' enough
    exact .of_call (chain_reaches depth calls)
  have term := ((call.above .unary (by decide)).above .factor (by decide)).above .term (by decide)
  have equality := (term.above .comparison (by decide)).above .equality (by decide)
  exact (equality.above .assignment (by decide)).above .expression (by decide)

/-- Some texts parse whose tree is too deep to be shown, whatever the depth limit is. -/
theorem exists_too_deep {limits : Limits} (enough : 12 ≤ limits.depth) :
    ∃ source program, Script.parse limits source = .ok program ∧
      Node.fitAll limits.depth program = false := by
  have parsed := statementSource_parses (fun turns => chain_read turns limits.depth)
    (chainTokens_written limits.depth) enough
  refine ⟨statementSource (chainTokens limits.depth), _, parsed, ?_⟩
  obtain ⟨depth, deep⟩ : ∃ depth, limits.depth = depth + 1 := ⟨limits.depth - 1, by omega⟩
  rw [Node.fitAll, deep, Node.fits, chainNode_fits, decide_eq_false (by omega), Bool.false_and]

end Scriptlet.Grammar
