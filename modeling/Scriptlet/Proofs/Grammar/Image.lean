import Scriptlet.Proofs.Grammar.Acceptance
import Scriptlet.Proofs.Grammar.Writing
import Scriptlet.Proofs.Node.Lines
import Scriptlet.Proofs.Token.Spaced

/-! The programs that source texts stand for are exactly the well-formed ones. -/
namespace Scriptlet.Grammar

open Node

variable {limits : Limits} {source : String} {program : List Node}

theorem Program.wellFormed {body : List Token} {last : Token}
    (derivation : Program (body ++ [last]) program) (spelled : Spell body) :
    WellFormedProgram program := by
  obtain ⟨parts, final, derivations, -, split, rfl⟩ := derivation
  obtain ⟨rfl, -⟩ := List.append_inj' split rfl
  intro node member
  obtain ⟨part, listed, rfl⟩ := List.mem_map.mp member
  have inside : ∀ token ∈ part.1, token ∈ (parts.map Prod.fst).flatten := by
    intro token inPart
    exact List.mem_flatten.mpr ⟨part.1, List.mem_map_of_mem listed, inPart⟩
  exact ((derivations part listed).wellFormed (spelled.part inside)).1

theorem parse_wellFormed (success : Script.parse limits source = .ok program) :
    WellFormedProgram program := by
  obtain ⟨tokens, after, lexed, parsed⟩ := parse_eq_ok.mp success
  have derivation := parseTokens_sound lexed parsed
  obtain ⟨body, last, rfl, -, spelled⟩ := tokenize_tokens lexed
  exact derivation.wellFormed spelled

theorem exists_program (wellFormed : WellFormedProgram program) :
    ∃ tokens, Written tokens ∧ Program (tokens ++ [⟨.endOfInput, "", 1⟩]) (relinedAll 1 program) := by
  obtain ⟨parts, derived, same⟩ := exists_parts
    (fun span node => Written span ∧ Derives .declaration false span node)
    fun node member => (wellFormed node member).writable
  refine ⟨(parts.map Prod.fst).flatten, .flatten fun span member => ?_, parts, _,
    fun part listed => (derived part listed).2, rfl, rfl, same.symm⟩
  obtain ⟨part, listed, rfl⟩ := List.mem_map.mp member
  exact (derived part listed).1

/-- What a source text parses to is well formed, and every well-formed program is, up to the lines
of its nodes, what some source text parses to under every depth limit that is high enough. -/
theorem parse_image :
    (∀ limits source program, Script.parse limits source = .ok program →
      WellFormedProgram program) ∧
    ∀ program, WellFormedProgram program → ∃ source depth, ∀ limits : Limits, depth ≤ limits.depth →
      ∃ result, Script.parse limits source = .ok result ∧ SameButLines program result := by
  refine ⟨fun _ _ _ => parse_wellFormed, fun program wellFormed => ?_⟩
  obtain ⟨tokens, written, derivation⟩ := exists_program wellFormed
  have lexed := tokenize_spaced (fun token member => (written token member).1)
    (fun token member => (written token member).2)
  refine ⟨String.ofList (Scan.spaced tokens), 10 * (tokens.length + 1) + 10, fun limits enough => ?_⟩
  refine ⟨relinedAll 1 program, ?_, ?_⟩
  · obtain ⟨after, parsed⟩ := parseTokens_complete limits derivation (by simpa using enough)
    exact parse_eq_ok.mpr ⟨_, after, lexed, parsed⟩
  · exact (relinedAll_relinedAll 1 1 program).symm

/-- A function whose `if` has two branches, the first of which is a loop around another such `if`. -/
theorem parse_image_nestedBranches :
    let inner := Node.ifStmt 3 (.reference 3 "b") (.returnStmt 3 (.reference 3 "a"))
      (.exprStmt 4 (.assignment 4 "b" (.unary 4 "!" (.binary 4 "==" (.reference 4 "a") (.reference 4 "b")))))
    let program := [Node.fnDecl 1 "f" ["a", "b"] (.block 1
      [.ifStmt 2 (.reference 2 "a") (.whileStmt 2 (.literal 2 (.bool true)) inner)
        (.returnStmt 5 .absent)])]
    ∃ source depth, ∀ limits : Limits, depth ≤ limits.depth →
      ∃ result, Script.parse limits source = .ok result ∧ SameButLines program result := by
  intro inner program
  refine parse_image.2 program fun node member => ?_
  cases List.mem_singleton.mp member
  have named : ∀ name ∈ ["f", "a", "b"], Lexeme.isName name := by decide +kernel
  have params : ∀ name ∈ ["a", "b"], Lexeme.isName name :=
    fun name listed => named name (List.mem_cons_of_mem _ listed)
  have refers : ∀ name ∈ ["a", "b"], ∀ line, WellFormed .expression (.reference line name) :=
    fun name listed line => .reference (params name listed)
  have changed : WellFormed .statement inner :=
    .ifElse (refers "b" (by simp) 3) (.returnStmt (refers "a" (by simp) 3)) rfl
      (.exprStmt (.assignment (named "b" (by simp)) (.unary (by decide)
        (.binary (by decide) (refers "a" (by simp) 4) (refers "b" (by simp) 4)))))
  refine .fnDecl (named "f" (by simp)) params fun statement inside => ?_
  cases List.mem_singleton.mp inside
  exact .statement
    (.ifElse (refers "a" (by simp) 2) (.whileStmt (.literal rfl) changed) rfl .bareReturn)

end Scriptlet.Grammar
