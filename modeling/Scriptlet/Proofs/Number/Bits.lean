import Mathlib.Algebra.Group.Nat.Defs
import Scriptlet.Number.Binary

/-! Doubles and their bits: every pattern that is no NaN belongs to exactly one double. -/
namespace Scriptlet.Number

open Float.Model Float.Model.UnpackedFloat

theorem toBitVec_sign (bit : BitVec 1) : (Sign.ofBitVec bit).toBitVec = bit := by
  rcases BitVec.eq_zero_or_eq_one bit with rfl | rfl <;> rfl

/-- A pattern is its sign, its exponent and its fraction, one after the other. -/
theorem packComponents_fields (bits : BitVec Format.binary64.numBits) :
    packComponents Format.binary64 (Sign.ofBitVec (unpackSign bits)) (unpackExponent bits)
      (unpackMantissa bits) = bits := by
  apply BitVec.eq_of_getLsbD_eq
  intro place inside
  have size : place < 64 := inside
  rw [packComponents, toBitVec_sign, BitVec.getLsbD_append, BitVec.getLsbD_append]
  by_cases low : place < 52
  · simp [low, unpackMantissa]
  · by_cases middle : place - 52 < 11
    · simp [low, middle, unpackExponent, show 52 + (place - 52) = place by omega]
    · have top : place = 63 := by omega
      subst top
      have sign : unpackSign bits = bits.extractLsb' 63 1 := rfl
      simp [sign]

theorem unpackMantissa_toNat (bits : BitVec Format.binary64.numBits) :
    (unpackMantissa bits).toNat = bits.toNat % 2 ^ 52 := by
  simp [unpackMantissa]

theorem unpackExponent_toNat (bits : BitVec Format.binary64.numBits) :
    (unpackExponent bits).toNat = bits.toNat / 2 ^ 52 % 2 ^ 11 := by
  simp [unpackExponent, Nat.shiftRight_eq_div_pow]

/-- Unpacking and packing again gives the same bits, unless they are those of a NaN. -/
theorem pack_unpack (bits : BitVec Format.binary64.numBits)
    (real : unpackExponent bits = -1#_ → unpackMantissa bits = 0#_) :
    UnpackedFloat.pack Format.binary64 (UnpackedFloat.unpack Format.binary64 bits) = bits := by
  have whole := packComponents_fields bits
  have bounded : (unpackMantissa bits).toNat < 2 ^ 52 := (unpackMantissa bits).isLt
  unfold UnpackedFloat.unpack
  dsimp only
  by_cases full : unpackExponent bits = -1#_
  · rw [if_pos full, if_pos (real full)]
    rw [full, real full] at whole
    exact whole
  · rw [if_neg full]
    by_cases small : unpackExponent bits = 0#_
    · rw [if_pos small]
      by_cases none : unpackMantissa bits = 0#_
      · rw [dif_pos none]
        rw [small, none] at whole
        exact whole
      · rw [dif_neg none]
        have some : (unpackMantissa bits).toNat ≠ 0 := by simpa [BitVec.toNat_eq] using none
        have short : (unpackMantissa bits).toNat.log2 + 1 ≠ Format.binary64.mantissaBits := by
          have below := (Nat.log2_lt some).mpr bounded
          change _ ≠ 53
          omega
        rw [small] at whole ⊢
        unfold UnpackedFloat.pack
        dsimp only
        rw [if_neg (by decide), if_neg short]
        simpa using whole
    · rw [if_neg small]
      have mantissa : (1#1 ++ unpackMantissa bits).toNat = 2 ^ 52 + (unpackMantissa bits).toNat := by
        rw [BitVec.toNat_append, Nat.shiftLeft_eq]
        change 1 * 2 ^ 52 ||| _ = _
        rw [Nat.mul_comm, ← Nat.two_pow_add_eq_or_of_lt bounded, Nat.mul_one]
      have long : (1#1 ++ unpackMantissa bits).toNat.log2 + 1 = Format.binary64.mantissaBits := by
        have log := (Nat.log2_eq_iff (n := (1#1 ++ unpackMantissa bits).toNat) (k := 52)
          (by omega)).mpr (by omega)
        rw [log]
        rfl
      have exponent : ((unpackExponent bits).toNat - (Format.binary64.exponentBias + 52 : Int) +
          Format.binary64.exponentBias + 52).toNat = (unpackExponent bits).toNat := by omega
      have finite : ¬ 2 ^ 11 ≤ (unpackExponent bits).toNat + 1 := by
        intro large
        apply full
        apply BitVec.eq_of_toNat_eq
        have bound : (unpackExponent bits).toNat < 2 ^ 11 := (unpackExponent bits).isLt
        change _ = 2047
        omega
      have kept : BitVec.ofNat 52 (1#1 ++ unpackMantissa bits).toNat = unpackMantissa bits := by
        apply BitVec.eq_of_toNat_eq
        rw [mantissa, BitVec.toNat_ofNat, Nat.add_mod_left, Nat.mod_eq_of_lt bounded]
      unfold UnpackedFloat.pack
      dsimp only
      rw [if_pos long]
      change (if 2 ^ 11 ≤ ((unpackExponent bits).toNat - (Format.binary64.exponentBias + 52 : Int) +
          Format.binary64.exponentBias + 52).toNat + 1 then _ else
        packComponents _ _ (BitVec.ofNat 11 ((unpackExponent bits).toNat -
          (Format.binary64.exponentBias + 52 : Int) + Format.binary64.exponentBias + 52).toNat)
          (BitVec.ofNat 52 (1#1 ++ unpackMantissa bits).toNat)) = bits
      rw [exponent, if_neg finite, kept, BitVec.ofNat_toNat, BitVec.setWidth_eq]
      exact whole

/-- A pattern is that of a double if it is at most that of the infinity, apart from its sign. -/
theorem toBits_ofBits (bits : Nat) (fits : bits < 2 ^ 64) (bounded : bits % 2 ^ 63 ≤ infinityBits) :
    (Float.ofBits (UInt64.ofNat bits)).toBits.toNat = bits := by
  have limit : infinityBits = 2047 * 2 ^ 52 := rfl
  have size : (UInt64.ofNat bits).toBitVec.toNat = bits := by
    simp
    omega
  have same : UnpackedFloat.pack Format.binary64
      (UnpackedFloat.unpack Format.binary64 (UInt64.ofNat bits).toBitVec) =
        (UInt64.ofNat bits).toBitVec := by
    apply pack_unpack
    intro full
    have exponent := unpackExponent_toNat (UInt64.ofNat bits).toBitVec
    rw [full, size] at exponent
    change 2047 = bits / 2 ^ 52 % 2 ^ 11 at exponent
    apply BitVec.eq_of_toNat_eq
    rw [unpackMantissa_toNat, size]
    change bits % 2 ^ 52 = 0
    omega
  change (UInt64.ofBitVec (UnpackedFloat.pack Format.binary64
    (UnpackedFloat.unpack Format.binary64 (UInt64.ofNat bits).toBitVec))).toNat = bits
  rw [same]
  exact size

theorem toBits_ofSignedBits (negative : Bool) (bounded : bits ≤ infinityBits) :
    (ofSignedBits negative bits).toBits.toNat = if negative then bits + 2 ^ 63 else bits := by
  have limit : infinityBits = 2047 * 2 ^ 52 := rfl
  have top : pow2 63 = 2 ^ 63 := rfl
  rw [ofSignedBits, top]
  split
  · exact toBits_ofBits (bits + 2 ^ 63) (by omega) (by omega)
  · exact toBits_ofBits bits (by omega) (by omega)

theorem binary_ofSignedBits (negative : Bool) (bounded : bits ≤ infinityBits) :
    binary (ofSignedBits negative bits) = .ofBits (if negative then bits + 2 ^ 63 else bits) := by
  rw [binary, toBits_ofSignedBits negative bounded]

/-- A double is determined by its bits. -/
theorem eq_of_toBits {x y : Float} (same : x.toBits.toNat = y.toBits.toNat) : x = y := by
  obtain ⟨⟨first, _⟩⟩ := x
  obtain ⟨⟨second, _⟩⟩ := y
  cases UInt64.toNat_inj.mp same
  rfl

/-- Whether a double carries no sign and is a number or the infinity. -/
def isUnsigned (x : Float) : Bool :=
  match binary x with
  | .nan => false
  | .infinite negative | .finite negative _ _ => !negative

/-- What a pattern stands for, by its fields. -/
theorem Binary.ofBits_eq (bits : Nat) : Binary.ofBits bits =
    if bits / 2 ^ 52 % 2 ^ 11 = 2047 then
      if bits % 2 ^ 52 = 0 then .infinite (bits / 2 ^ 63 % 2 == 1) else .nan
    else if bits / 2 ^ 52 % 2 ^ 11 = 0 then
      .finite (bits / 2 ^ 63 % 2 == 1) (bits % 2 ^ 52) (-1074)
    else .finite (bits / 2 ^ 63 % 2 == 1) (bits % 2 ^ 52 + 2 ^ 52)
      (((bits / 2 ^ 52 % 2 ^ 11 : Nat) : Int) - 1075) := rfl

theorem isUnsigned_iff (x : Float) : isUnsigned x = true ↔ x.toBits.toNat ≤ infinityBits := by
  have limit : infinityBits = 2047 * 2 ^ 52 := rfl
  have size : x.toBits.toNat < 2 ^ 64 := x.toBits.toNat_lt
  unfold isUnsigned binary
  rw [Binary.ofBits_eq]
  generalize x.toBits.toNat = bits at size ⊢
  have negative : (!(bits / 2 ^ 63 % 2 == 1)) = true ↔ bits < 2 ^ 63 := by
    rw [Bool.not_eq_true', beq_eq_false_iff_ne]
    omega
  by_cases full : bits / 2 ^ 52 % 2 ^ 11 = 2047
  · rw [if_pos full]
    by_cases none : bits % 2 ^ 52 = 0
    · rw [if_pos none]
      dsimp only
      rw [negative]
      omega
    · rw [if_neg none]
      simp only [Bool.false_eq_true, false_iff]
      omega
  · rw [if_neg full]
    by_cases small : bits / 2 ^ 52 % 2 ^ 11 = 0
    · rw [if_pos small]
      dsimp only
      rw [negative]
      omega
    · rw [if_neg small]
      dsimp only
      rw [negative]
      omega

end Scriptlet.Number
