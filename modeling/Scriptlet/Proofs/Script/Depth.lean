import Mathlib
import Scriptlet.Proofs.Grammar.Acceptance
import Scriptlet.Proofs.Machine.Depth

/-! The depth limit does not show unless it is reached: a text that stays within it is parsed and run in
the same way under any higher limit. -/
namespace Scriptlet

/-- The text nests too deeply for the limit, or its run does. -/
def Error.isTooDeep : Error → Bool
  | .parse (.nestedTooDeeply _) | .run .stackOverflow => true
  | _ => false

namespace Script

variable {limits : Limits} {deeper : Nat}

theorem parse_deeper (more : limits.depth ≤ deeper) (source : String) :
    (∃ line, parse limits source = .error (.parse (.nestedTooDeeply line))) ∨
      parse { limits with depth := deeper } source = parse limits source := by
  unfold parse
  cases lexed : tokenize source with
  | error error => exact .inr rfl
  | ok tokens =>
    dsimp only
    have readable := Grammar.readable_ofTokens lexed
    obtain ⟨-, agrees⟩ := Parse.program_agree more (Stream.ofTokens tokens) readable
    rcases agrees with ⟨error, reached, ⟨line, rfl⟩, failed⟩ | same
    · left
      refine ⟨line, ?_⟩
      rw [parseTokens, failed]
    · right
      rw [parseTokens, parseTokens, same]

/-- A program that the limit cuts off has printed the first part of what it prints under the higher
limit. -/
theorem interpret_deeper (more : limits.depth ≤ deeper) (program : List Node) (machine : Machine) :
    interpret { limits with depth := deeper } program machine = interpret limits program machine ∨
      (interpret limits program machine).1 = .error (.run .stackOverflow) ∧
        (interpret limits program machine).2.Prints
          (interpret { limits with depth := deeper } program machine).2 := by
  have settles := Eval.interpret_settles limits program machine
  unfold interpret
  rcases (Eval.interpret_truncates more program).agrees machine with
    same | ⟨fault, reached, isCut, failed, printed⟩
  · left
    rw [same]
  · right
    rw [failed] at settles ⊢
    rcases isCut with rfl | rfl
    · exact absurd rfl (settles reached)
    · refine ⟨rfl, ?_⟩
      generalize Eval.interpret { limits with depth := deeper } program machine = outcome at printed ⊢
      cases outcome <;> exact printed

/-- A text that does not nest too deeply for the limit, neither itself nor in its run, has the same tree,
the same end, the same output and the same scopes under any higher limit. And a run that the limit cuts
off has printed the first part of what the run under the higher limit prints. -/
theorem depth_limit_does_not_show {higher : Limits} (more : limits.depth ≤ higher.depth)
    (turns : higher.turns = limits.turns) (source : String) (machine : Machine) :
    ((∃ line, parse limits source = .error (.parse (.nestedTooDeeply line))) ∨
      parse higher source = parse limits source) ∧
    ((∀ error, (run limits source machine).1 = .error error → error.isTooDeep = false) →
      run higher source machine = run limits source machine) ∧
    ((run limits source machine).1 = .error (.run .stackOverflow) →
      (run limits source machine).2.output.toList <+: (run higher source machine).2.output.toList) := by
  obtain ⟨depth, _⟩ := higher
  cases turns
  have parsed := parse_deeper more source
  refine ⟨parsed, ?_⟩
  unfold run
  rcases parsed with ⟨line, failed⟩ | same
  · rw [failed]
    constructor
    · intro shallow
      cases shallow _ rfl
    · intro overflow
      cases overflow
  · rw [same]
    cases parse limits source with
    | error error =>
      constructor
      · exact fun _ => rfl
      · exact fun _ => List.prefix_refl _
    | ok program =>
      dsimp only
      rcases interpret_deeper more program machine with same | ⟨overflow, printed⟩
      · rw [same]
        constructor
        · exact fun _ => rfl
        · exact fun _ => List.prefix_refl _
      · rw [overflow]
        constructor
        · intro shallow
          cases shallow _ rfl
        · exact fun _ => printed

/-- A function that prints and calls itself is cut off, and a text that only prints is not. -/
theorem depth_limit_does_not_show_recursion :
    (run ⟨16, 9⟩ "fn f(){print f;f();}f();" .fresh).1 = .error (.run .stackOverflow) ∧
    (run ⟨16, 9⟩ "fn f(){print f;f();}f();" .fresh).2.output.toList <+:
      (run ⟨99, 9⟩ "fn f(){print f;f();}f();" .fresh).2.output.toList ∧
    run ⟨99, 9⟩ "print null;" .fresh = run ⟨16, 9⟩ "print null;" .fresh := by
  have more : (⟨16, 9⟩ : Limits).depth ≤ (⟨99, 9⟩ : Limits).depth := by decide
  have overflow : (run ⟨16, 9⟩ "fn f(){print f;f();}f();" .fresh).1 = .error (.run .stackOverflow) := by
    cbv
  have ends : (run ⟨16, 9⟩ "print null;" .fresh).1 = .ok () := rfl
  obtain ⟨-, -, cutOff⟩ := depth_limit_does_not_show more rfl "fn f(){print f;f();}f();" .fresh
  obtain ⟨-, whole, -⟩ := depth_limit_does_not_show more rfl "print null;" .fresh
  refine ⟨overflow, cutOff overflow, whole fun error failed => ?_⟩
  rw [ends] at failed
  cases failed

end Script

end Scriptlet
