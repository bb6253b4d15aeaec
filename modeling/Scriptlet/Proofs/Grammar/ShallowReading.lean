import Scriptlet.Proofs.Grammar.Acceptance
import Scriptlet.Proofs.Grammar.Writing
import Scriptlet.Proofs.Token.Spaced

/-! Phrases that a small depth is enough for, however long they are. The parser reads operators and
calls with loops, and the turns of a loop are all on one level. -/
namespace Scriptlet.Grammar

open Phrase

/-- The phrase is read wherever the depth is at least `least`. -/
def ReadFrom (turns least : Nat) (phrase : Phrase) (span : List Token) (node : Node) : Prop :=
  Derives phrase false span node ∧ ∀ depth, least ≤ depth →
    Complete turns (parseWithin turns depth) phrase false span node

def semicolon : Token :=
  ⟨.semicolon, ";", 1⟩

variable {phrase inner : Phrase} {turns least : Nat} {span : List Token} {node : Node} {limits : Limits}

/-- A phrase that consists of another one is read one level above it. -/
theorem ReadFrom.above (read : ReadFrom turns least inner span node) (phrase : Phrase)
    (listed : inner ∈ alternatives phrase) : ReadFrom turns (least + 1) phrase span node := by
  refine ⟨.alternative listed read.1, fun depth enough => ?_⟩
  cases depth with
  | zero => cases enough
  | succ depth => exact .alternative listed read.1 (read.2 depth (Nat.le_of_succ_le_succ enough)).reads

/-- An expression is a statement, three levels above it, when a semicolon follows. -/
theorem ReadFrom.declaration (read : ReadFrom turns least .expression span node)
    (written : Written span) :
    ReadFrom turns (least + 3) .declaration (span ++ [semicolon]) (.exprStmt 1 node) := by
  obtain ⟨first, more, rfl⟩ := List.exists_cons_of_ne_nil read.1.span_ne_nil
  have ends : semicolon.kind = .semicolon := rfl
  have statement : ReadFrom turns (least + 1) .expressionStatement (first :: more ++ [semicolon])
      (.exprStmt 1 node) := by
    rw [← (written first (by simp)).2]
    refine ⟨.expressionStatement read.1 ends, fun depth enough => ?_⟩
    obtain ⟨depth, rfl⟩ : ∃ lower, depth = lower + 1 := ⟨depth - 1, by omega⟩
    have reads := (read.2 depth (by omega)).reads
    exact .of_reads (expressionStatement_reads reads ends) ⟨rfl, by decide⟩
  exact (statement.above .statement (by decide)).above .declaration (by decide)

/-- The statement that consists of an expression, as a text. -/
def statementSource (span : List Token) : String :=
  String.ofList (Scan.spaced (span ++ [semicolon]))

theorem statementSource_parses (read : ∀ turns, ReadFrom turns least .expression span node)
    (written : Written span) (enough : least + 4 ≤ limits.depth) :
    Script.parse limits (statementSource span) = .ok [.exprStmt 1 node] := by
  have whole : Written (span ++ [semicolon]) := .append written (.cons (.mark (by decide)) .nil)
  have lexed : tokenize (statementSource span) = .ok (span ++ [semicolon] ++ [⟨.endOfInput, "", 1⟩]) :=
    tokenize_spaced (fun token member => (whole token member).1) fun token member => (whole token member).2
  let parts : List (List Token × Node) := [(span ++ [semicolon], .exprStmt 1 node)]
  have derivations : ∀ part ∈ parts, Derives .declaration false part.1 part.2 := by
    intro part member
    rw [List.mem_singleton.mp member]
    exact ((read 0).declaration written).1
  have reads : ∀ turns, ∀ part ∈ parts, Reads turns (parseWithin turns limits.depth .declaration)
      (Stops .declaration false) part.1 part.2 := by
    intro turns part member
    rw [List.mem_singleton.mp member]
    obtain ⟨depth, deep⟩ : ∃ depth, limits.depth = depth + 1 := ⟨limits.depth - 1, by omega⟩
    rw [deep]
    exact (((read turns).declaration written).2 depth (by omega)).reads
  obtain ⟨after, parsed⟩ := parseTokens_of_reads limits derivations reads
    (show (⟨.endOfInput, "", 1⟩ : Token).kind = .endOfInput from rfl)
  refine parse_eq_ok.mpr ⟨_, after, lexed, ?_⟩
  simpa [parts] using parsed

end Scriptlet.Grammar
