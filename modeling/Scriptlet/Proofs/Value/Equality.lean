import Mathlib
import Scriptlet.Proofs.Machine.Roster
import Scriptlet.Proofs.Number.Quantity

/-! The equality of the language. Two values are equal exactly when they mean the same, and the laws of
equality follow from that. Only a NaN means nothing, and so it equals nothing. -/
namespace Scriptlet

/-- What a value can mean. Integers and doubles mean quantities, and a function means the scope that was
made for it. -/
inductive Meaning where
  | null
  | bool (value : Bool)
  | quantity (value : Number.Quantity)
  | text (value : String)
  | function (scope : ScopeId)

/-- Null, false, zero and the empty text do not hold. -/
def Meaning.Holds : Meaning → Prop
  | .null => False
  | .bool value => value
  | .quantity value => value ≠ .exact 0
  | .text value => value ≠ ""
  | .function _ => True

namespace Scalar

def meaning? : Scalar → Option Meaning
  | null => some .null
  | bool value => some (.bool value)
  | number value => (Number.binary value).quantity?.map .quantity
  | integer value => some (.quantity (.exact value))
  | text value => some (.text value)

theorem equal_iff (left right : Scalar) : left.equal right = true ↔
    ∃ meaning, left.meaning? = some meaning ∧ right.meaning? = some meaning := by
  cases left with
  | null => cases right <;> simp [equal, meaning?]
  | bool value => cases right <;> simp [equal, meaning?, @eq_comm _ value]
  | number value =>
    cases right <;> simp [equal, meaning?, Number.equal_iff, Number.equalsInteger_iff]
  | integer value =>
    cases right <;> simp [equal, meaning?, Number.equalsInteger_iff, @eq_comm _ value]
  | text value => cases right <;> simp [equal, meaning?, @eq_comm _ value]

theorem truthy_iff {value : Scalar} (means : value.meaning? = some meaning) :
    value.truthy = true ↔ meaning.Holds := by
  cases value with
  | number value =>
    obtain ⟨quantity, stands, rfl⟩ := Option.map_eq_some_iff.mp means
    have zero := Number.isZero_iff value
    rw [stands, Option.some_inj] at zero
    rw [truthy, Bool.not_eq_true', ← Bool.not_eq_true, zero]
    rfl
  | _ =>
    cases means
    simp [truthy, Meaning.Holds]

theorem meaning?_eq_none_iff (value : Scalar) :
    value.meaning? = none ↔ ∃ x, value = .number x ∧ Number.isNaN x := by
  cases value <;> simp [meaning?, Number.isNaN_iff]

end Scalar

namespace Value

def meaning? : Value → Option Meaning
  | .scalar value => value.meaning?
  | .function callee => some (.function callee.closure)

theorem equal_iff (left right : Value) : left.equal right = true ↔
    ∃ meaning, left.meaning? = some meaning ∧ right.meaning? = some meaning := by
  cases left with
  | scalar first =>
    cases right with
    | scalar second => exact first.equal_iff second
    | function callee => cases first <;> simp [equal, meaning?, Scalar.meaning?]
  | function callee =>
    cases right with
    | scalar second => cases second <;> simp [equal, meaning?, Scalar.meaning?]
    | function other => simp [equal, meaning?, @eq_comm _ other.closure]

theorem truthy_iff {value : Value} (means : value.meaning? = some meaning) :
    value.truthy = true ↔ meaning.Holds := by
  cases value with
  | scalar value => exact value.truthy_iff means
  | function callee =>
    cases means
    exact iff_of_true rfl trivial

theorem meaning?_eq_none_iff (value : Value) :
    value.meaning? = none ↔ ∃ x, value = .number x ∧ Number.isNaN x := by
  cases value with
  | scalar value => simp [meaning?, Scalar.meaning?_eq_none_iff, number]
  | function callee => simp [meaning?, number]

theorem equal_comm (left right : Value) : left.equal right = right.equal left := by
  rw [Bool.eq_iff_iff, equal_iff, equal_iff]
  simp only [and_comm]

theorem equal_trans {first second third : Value} (before : first.equal second)
    (after : second.equal third) : first.equal third := by
  obtain ⟨meaning, left, middle⟩ := (equal_iff first second).mp before
  obtain ⟨again, same, right⟩ := (equal_iff second third).mp after
  cases middle.symm.trans same
  exact (equal_iff first third).mpr ⟨meaning, left, right⟩

theorem equal_self_iff (value : Value) :
    value.equal value ↔ ¬ ∃ x, value = .number x ∧ Number.isNaN x := by
  rw [equal_iff, ← meaning?_eq_none_iff, ← ne_eq, Option.ne_none_iff_exists']
  simp only [and_self]

theorem truthy_congr {left right : Value} (same : left.equal right) : left.truthy = right.truthy := by
  obtain ⟨meaning, first, second⟩ := (equal_iff left right).mp same
  rw [Bool.eq_iff_iff, truthy_iff first, truthy_iff second]

/-- A boolean equals nothing that is not the same boolean. -/
theorem bool_equal_iff (flag : Bool) (other : Value) : (bool flag).equal other ↔ other = .bool flag := by
  cases other with
  | scalar value => cases value <;> simp [bool, equal, Scalar.equal, @eq_comm _ flag]
  | function callee => simp [bool, equal]

/-- A function on a roster equals nothing on it but itself. -/
theorem function_equal_iff {roster : Roster} {callee : Function} {other : Value}
    (listed : roster.Lists (.function callee)) (another : roster.Lists other) :
    (function callee).equal other ↔ other = .function callee := by
  cases other with
  | scalar value => simp [equal]
  | function twin =>
    have shared : (function callee).equal (function twin) ↔ callee.closure = twin.closure := beq_iff_eq
    rw [shared, function.injEq]
    constructor
    · exact fun same => listed.unique another same.symm
    · rintro rfl
      rfl

/-- Two values are equal exactly when they mean the same, an integer and a double in particular when the
double stands for the integer. So equality is symmetric and transitive, and each value but a NaN equals
itself; a boolean equals only the same boolean. -/
structure EqualityLaws : Prop where
  meanings : ∀ left right : Value, left.equal right ↔
    ∃ meaning, left.meaning? = some meaning ∧ right.meaning? = some meaning
  symm : ∀ left right : Value, left.equal right = right.equal left
  trans : ∀ first second third : Value, first.equal second → second.equal third → first.equal third
  refl_iff : ∀ value : Value, value.equal value ↔ ¬ ∃ x, value = .number x ∧ Number.isNaN x
  booleans : ∀ flag other, (bool flag).equal other ↔ other = .bool flag
  numbers : ∀ (whole : Int) (x : Float), equal (.scalar (.integer whole)) (.number x) ↔
    (Number.binary x).quantity? = some (.exact whole)

/-- A function that is met in a run equals only itself: each run keeps a roster, on which no two functions
have the same scope. -/
structure FunctionLaws : Prop where
  listed : ∀ (roster : Roster) callee other, roster.Lists (.function callee) → roster.Lists other →
    ((function callee).equal other ↔ other = .function callee)
  reached : ∀ machine, Script.Reached machine → (∃ roster, machine.Enrolled roster) ∧ ∀ limits source,
    Script.runChecked Machine.isEnrolled limits source machine = Script.run limits source machine
  evaluated : ∀ (machine : Machine) roster, machine.Enrolled roster → ∀ limits node value after,
    Eval.evaluate limits node machine = .ok value after →
      ∃ more, after.Enrolled (roster ++ more) ∧ Roster.Lists (roster ++ more) value

theorem equality_laws : EqualityLaws where
  meanings := equal_iff
  symm := equal_comm
  trans _ _ _ := equal_trans
  refl_iff := equal_self_iff
  booleans := bool_equal_iff
  numbers whole x := Number.equalsInteger_iff x whole

theorem function_laws : FunctionLaws where
  listed _ _ _ := function_equal_iff
  reached _ reached := ⟨reached.enrolled, Script.run_enrolled reached⟩
  evaluated _ _ enrolled _ _ _ _ := Eval.evaluate_enrolled enrolled

/-- Equality is a partial equivalence. To compare two values never fails, equal values count as true alike,
and a function that is met in a run equals only itself. -/
theorem equality_is_partial_equivalence :
    EqualityLaws ∧
    (∀ left right, binary "==" left right = .ok (.bool (left.equal right)) ∧
      binary "!=" left right = .ok (.bool (!left.equal right))) ∧
    (∀ left right : Value, left.equal right → left.truthy = right.truthy) ∧
    FunctionLaws :=
  ⟨equality_laws, fun _ _ => ⟨rfl, rfl⟩, fun _ _ => truthy_congr, function_laws⟩

open Eval in
/-- Minus zero equals zero, as both equal the integer zero. Of two neighbouring integers, only one equals
the double that both are rounded to. Two functions that the same declaration made are not equal. -/
theorem equality_is_partial_equivalence_mixed :
    let minusZero := Number.ofSignedBits true 0
    let zero := Number.ofSignedBits false 0
    let power := Number.ofSignedBits false (1076 * 2 ^ 52)
    let limits : Limits := ⟨50, 9⟩
    let made : Node := .fnDecl 1 "f" [] (.block 1 [])
    let make : Function := ⟨"m", [], .block 1 [made, .returnStmt 1 (.reference 1 "f")], 1⟩
    let machine : Machine := ⟨#[⟨none, [("m", .function make)]⟩, ⟨some 0, []⟩], 0, #[], #[]⟩
    let call : Node := .call 1 (.reference 1 "m") []
    let first : Function := ⟨"f", [], .block 1 [], 3⟩
    let second : Function := ⟨"f", [], .block 1 [], 5⟩
    let later : Machine := ⟨#[⟨none, [("m", .function make)]⟩, ⟨some 0, []⟩,
      ⟨some 1, [("f", .function first)]⟩, ⟨some 2, []⟩], 0, #[], #[.called make 0]⟩
    (number minusZero).equal (number zero) ∧ (number minusZero).truthy = (number zero).truthy ∧
      equal (.scalar (.integer (2 ^ 53))) (.number power) ∧
      ¬ equal (.scalar (.integer (2 ^ 53 + 1))) (.number power) ∧
      Script.run limits "fn m(){fn f(){}return f;}" .fresh = (.ok (), machine) ∧
      evaluate limits call machine = .ok (.function first) later ∧
      (∃ last, evaluate limits call later = .ok (.function second) last) ∧
      (function first).equal (function first) ∧ ¬ (function first).equal (function second) := by
  intro minusZero zero power limits made make machine call first second later
  have ran : Script.run limits "fn m(){fn f(){}return f;}" .fresh = (.ok (), machine) := by cbv
  have called : evaluate limits call machine = .ok (.function first) later := rfl
  have again : ∃ last, evaluate limits call later = .ok (.function second) last := ⟨_, rfl⟩
  obtain ⟨last, calledAgain⟩ := again
  have minusZeroIs : Number.binary minusZero = .finite true 0 (-1074) := by
    rw [Number.binary_ofSignedBits true (by decide)]
    decide
  have zeroIs : Number.binary zero = .finite false 0 (-1074) := by
    rw [Number.binary_ofSignedBits false (by decide)]
    decide
  have powerIs : Number.binary power = .finite false (2 ^ 52) 1 := by
    rw [Number.binary_ofSignedBits false (by decide)]
    decide
  obtain ⟨equality, -, truth, functions⟩ := equality_is_partial_equivalence
  have zeros : (number minusZero).equal (number zero) := by
    refine equality.trans _ (.scalar (.integer 0)) _ ?_ ((equality.numbers 0 zero).mpr ?_)
    · rw [equality.symm]
      refine (equality.numbers 0 minusZero).mpr ?_
      simp [minusZeroIs, Number.Binary.quantity?, Number.signed]
    · simp [zeroIs, Number.Binary.quantity?, Number.signed]
  have stands : (Number.binary power).quantity? = some (.exact (2 ^ 53)) := by
    rw [powerIs, Number.Binary.quantity?, Number.signed]
    norm_num
  have reached : Script.Reached machine := by
    have after := Script.Reached.run limits "fn m(){fn f(){}return f;}" .fresh
    rwa [ran] at after
  obtain ⟨⟨roster, enrolled⟩, -⟩ := functions.reached machine reached
  obtain ⟨more, enrolledThen, listed⟩ := functions.evaluated machine roster enrolled limits call _ _ called
  obtain ⟨further, -, another⟩ := functions.evaluated later _ enrolledThen limits call _ _ calledAgain
  have stillListed := listed.grow (List.prefix_append _ further)
  refine ⟨zeros, truth _ _ zeros, ?_, ?_, ran, called, ⟨last, calledAgain⟩, ?_, ?_⟩
  · rw [equality.numbers, stands]
    norm_num
  · rw [equality.numbers, stands]
    norm_num
  · exact (functions.listed _ first _ listed listed).mpr rfl
  · rw [functions.listed _ first _ stillListed another]
    simp [first, second]

end Value

end Scriptlet
