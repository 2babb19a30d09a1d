/-
# Whole numbers as doubles

A double has fifty-three binary digits, so a whole number is one of the doubles if its digits
behind the first fifty-three are zero (`Double.Fits`), as they are up to `2 ^ 53`.  Such a number is
turned into a double and back without loss (`Double.toInt64_ofInt`).

The numbers that doubles are rounded to are of this kind, but for the greatest 64-bit integer, where
greater ones end.  So rounding a double and turning the result into a double again ends at the same
number (`Double.toInt64_ofInt_toInt64`).
-/
import Mathlib.Tactic.Ring
import Chatflow.Decimal.Double

namespace Chatflow.Double

/-! ### Numbers of fifty-three digits -/

/-- The binary digits of the number behind the first fifty-three are zero. -/
def Fits (n : Nat) : Prop := 2 ^ (n.log2 - 52) ∣ n

lemma fits_mul_two_pow {m : Nat} (hm : m < 2 ^ 53) (k : Nat) : Fits (m * 2 ^ k) := by
  rcases Nat.eq_zero_or_pos m with rfl | hpos
  · simp [Fits]
  · have hlt : m * 2 ^ k < 2 ^ (53 + k) := by
      rw [Nat.pow_add]
      exact Nat.mul_lt_mul_of_pos_right hm (Nat.two_pow_pos k)
    have hne : m * 2 ^ k ≠ 0 := (Nat.mul_pos hpos (Nat.two_pow_pos k)).ne'
    have hlog : (m * 2 ^ k).log2 < 53 + k := (Nat.log2_lt hne).2 hlt
    exact Nat.dvd_trans (Nat.pow_dvd_pow 2 (by omega)) (Nat.dvd_mul_left _ m)

lemma fits_of_le {n : Nat} (h : n ≤ 2 ^ 53) : Fits n := by
  rcases Nat.lt_or_eq_of_le h with h | rfl
  · simpa using fits_mul_two_pow h 0
  · exact fits_mul_two_pow (m := 1) (by decide) 53

/-! ### Rounding to a double -/

/-- A quotient that comes out even is not rounded. -/
lemma roundedQuotient_mul (q : Nat) {den : Nat} (h : 0 < den) :
    roundedQuotient (q * den) den = q := by
  simp [roundedQuotient, Nat.mul_div_cancel q h, h]

lemma lastExponent_one {n : Nat} (hn : n ≠ 0) : lastExponent n 1 = n.log2 - 52 := by
  have hlead : leadingExponent n 1 = n.log2 := by
    have hone : Nat.log2 1 = 0 := by decide
    simp [leadingExponent, Nat.shiftLeft_eq, hone, Nat.log2_self_le hn]
  rw [lastExponent, hlead]
  omega

/-- A number that fits is a significand of fifty-three digits, the first of them a one, times a
power of two. -/
lemma exists_significand {n : Nat} (hn : n ≠ 0) (h : Fits n) :
    ∃ m, 2 ^ 52 ≤ m ∧ m < 2 ^ 53 ∧ m * 2 ^ (n.log2 - 52) = n * 2 ^ (52 - n.log2) := by
  have hle : 2 ^ n.log2 ≤ n := Nat.log2_self_le hn
  have hlt : n < 2 ^ (n.log2 + 1) := Nat.lt_log2_self
  rcases Nat.le_total n.log2 52 with hlog | hlog
  · refine ⟨n * 2 ^ (52 - n.log2), ?_, ?_, by simp [Nat.sub_eq_zero_of_le hlog]⟩
    · calc 2 ^ 52 = 2 ^ n.log2 * 2 ^ (52 - n.log2) := by rw [← Nat.pow_add]; congr 1; omega
        _ ≤ _ := Nat.mul_le_mul_right _ hle
    · calc n * 2 ^ (52 - n.log2) < 2 ^ (n.log2 + 1) * 2 ^ (52 - n.log2) :=
            Nat.mul_lt_mul_of_pos_right hlt (Nat.two_pow_pos _)
        _ = 2 ^ 53 := by rw [← Nat.pow_add]; congr 1; omega
  · obtain ⟨m, hm⟩ := h
    have hsplit : 2 ^ n.log2 = 2 ^ (n.log2 - 52) * 2 ^ 52 := by rw [← Nat.pow_add]; congr 1; omega
    refine ⟨m, ?_, ?_, ?_⟩
    · refine Nat.le_of_mul_le_mul_left (c := 2 ^ (n.log2 - 52)) ?_ (Nat.two_pow_pos _)
      rwa [← hsplit, ← hm]
    · refine Nat.lt_of_mul_lt_mul_left (a := 2 ^ (n.log2 - 52)) ?_
      rw [← hm, show (2 : Nat) ^ 53 = 2 ^ 52 * 2 from rfl, ← Nat.mul_assoc, ← hsplit]
      exact hlt
    · rw [Nat.sub_eq_zero_of_le hlog, Nat.mul_comm, ← hm]
      simp

/-- The double of a number that fits has its leading exponent and its significand. -/
lemma toNat_bits_ofNat {n m : Nat} (hn : n ≠ 0) (hlt : n < 2 ^ 64) (hm : m < 2 ^ 53)
    (h : m * 2 ^ (n.log2 - 52) = n * 2 ^ (52 - n.log2)) :
    (ofNat n).bits.toNat = (n.log2 + 1022) * 2 ^ 52 + m := by
  have hlog : n.log2 < 64 := (Nat.log2_lt hn).2 hlt
  have hup : ((n.log2 : Int) - 52).toNat = n.log2 - 52 := by omega
  have hdown : (-((n.log2 : Int) - 52)).toNat = 52 - n.log2 := by omega
  have hplace : ((n.log2 : Int) - 52 + 1074).toNat = n.log2 + 1022 := by omega
  have hbits : (n.log2 + 1022) * 2 ^ 52 + m < infinityBits := by
    rw [infinityBits]
    omega
  rw [ofNat, nearest?, if_neg hn]
  simp only [lastExponent_one hn, hup, hdown, hplace, Nat.shiftLeft_eq, Nat.one_mul, ← h,
    roundedQuotient_mul m (Nat.two_pow_pos _), if_pos hbits, Option.getD_some]
  rw [infinityBits] at hbits
  show (UInt64.ofNat _).toNat = _
  rw [UInt64.toNat_ofNat', Nat.mod_eq_of_lt (by omega)]

/-! ### Sign and magnitude -/

/-- Everything but the sign of a double is in its last sixty-three bits. -/
lemma magnitude_congr {d d' : Double} (h : d.bits.toNat % 2 ^ 63 = d'.bits.toNat % 2 ^ 63) :
    d.magnitude = d'.magnitude := by
  have hexponent : d.exponentField = d'.exponentField := by
    simp only [exponentField, Nat.shiftRight_eq_div_pow]
    omega
  have hfraction : d.fractionField = d'.fractionField := by
    simp only [fractionField]
    omega
  rw [magnitude, hexponent, hfraction]
  rfl

lemma magnitude_of_bits {d : Double} {e m : Nat} (hfirst : 2 ^ 52 ≤ m) (hm : m < 2 ^ 53)
    (he : e + 1 < 2048) (h : d.bits.toNat = e * 2 ^ 52 + m) :
    d.magnitude.significand = m ∧ d.magnitude.exponent = (e : Int) - 1074 := by
  have hexponent : d.exponentField = e + 1 := by
    rw [exponentField, Nat.shiftRight_eq_div_pow, h]
    omega
  have hfraction : 0x10000000000000 + d.fractionField = m := by
    rw [fractionField, h]
    omega
  simp only [magnitude, hexponent, Nat.succ_ne_zero, if_false]
  exact ⟨hfraction, by omega⟩

lemma isNegative_eq_testBit (d : Double) : d.isNegative = d.bits.toNat.testBit 63 := by
  rw [isNegative, Nat.testBit_eq_decide_div_mod_eq, Nat.shiftRight_eq_div_pow]

lemma toNat_bits_negate (d : Double) : d.negate.bits.toNat = d.bits.toNat ^^^ 2 ^ 63 :=
  UInt64.toNat_xor _ _

@[simp] lemma isNegative_negate (d : Double) : d.negate.isNegative = !d.isNegative := by
  rw [isNegative_eq_testBit, isNegative_eq_testBit, toNat_bits_negate, Nat.testBit_xor,
    Nat.testBit_two_pow]
  simp

@[simp] lemma magnitude_negate (d : Double) : d.negate.magnitude = d.magnitude := by
  refine magnitude_congr (Nat.eq_of_testBit_eq fun i => ?_)
  rw [toNat_bits_negate, Nat.testBit_mod_two_pow, Nat.testBit_mod_two_pow, Nat.testBit_xor,
    Nat.testBit_two_pow]
  by_cases hi : i < 63
  · simp [show 63 ≠ i by omega]
  · simp [hi]

/-! ### Rounding to a whole number -/

/-- The whole number nearest to the magnitude of a double. -/
def wholeMagnitude (d : Double) : Nat :=
  (2 * d.magnitude.numerator + d.magnitude.denominator) / (2 * d.magnitude.denominator)

lemma toInt64_eq (d : Double) :
    d.toInt64 = if d.isNegative then max (-(d.wholeMagnitude : Int)) minInt64
      else min (d.wholeMagnitude : Int) maxInt64 := rfl

lemma wholeMagnitude_of_eq {d : Double} {n : Nat}
    (h : d.magnitude.numerator = n * d.magnitude.denominator) : d.wholeMagnitude = n := by
  have hden : 0 < d.magnitude.denominator := by
    simp [Decimal.Binary.denominator, Nat.shiftLeft_eq]
  rw [wholeMagnitude, h]
  refine Nat.div_eq_of_lt_le ?_ ?_
  · calc n * (2 * d.magnitude.denominator) = 2 * (n * d.magnitude.denominator) := by ring
      _ ≤ _ := Nat.le_add_right _ _
  · calc 2 * (n * d.magnitude.denominator) + d.magnitude.denominator
        < 2 * (n * d.magnitude.denominator) + 2 * d.magnitude.denominator := by omega
      _ = (n + 1) * (2 * d.magnitude.denominator) := by ring

/-- Neither sign nor digits are lost of a natural number that fits. -/
lemma wholeMagnitude_ofNat {n : Nat} (h : Fits n) (hlt : n < 2 ^ 64) :
    (ofNat n).wholeMagnitude = n ∧ (ofNat n).isNegative = false := by
  by_cases hn : n = 0
  · subst hn
    decide
  obtain ⟨m, hfirst, hm, hvalue⟩ := exists_significand hn h
  have hlog : n.log2 < 64 := (Nat.log2_lt hn).2 hlt
  have hbits := toNat_bits_ofNat hn hlt hm hvalue
  obtain ⟨hsignificand, hexponent⟩ := magnitude_of_bits hfirst hm (by omega) hbits
  have hup : (((n.log2 + 1022 : Nat) : Int) - 1074).toNat = n.log2 - 52 := by omega
  have hdown : (-(((n.log2 + 1022 : Nat) : Int) - 1074)).toNat = 52 - n.log2 := by omega
  refine ⟨wholeMagnitude_of_eq ?_, ?_⟩
  · rw [Decimal.Binary.numerator, Decimal.Binary.denominator, hsignificand, hexponent, hup, hdown,
      Nat.shiftLeft_eq, Nat.shiftLeft_eq, Nat.one_mul, hvalue]
  · rw [isNegative_eq_testBit, hbits]
    exact Nat.testBit_lt_two_pow (by omega)

/-- An integer that fits is turned into a double and back without loss. -/
lemma toInt64_ofInt {n : Int} (h : Fits n.natAbs) (hmin : minInt64 ≤ n) (hmax : n ≤ maxInt64) :
    (ofInt n).toInt64 = n := by
  have hlt : n.natAbs < 2 ^ 64 := by
    rw [minInt64] at hmin
    rw [maxInt64] at hmax
    omega
  obtain ⟨hwhole, hsign⟩ := wholeMagnitude_ofNat h hlt
  rw [ofInt, toInt64_eq]
  by_cases hn : n < 0
  · rw [if_pos hn, isNegative_negate, hsign, wholeMagnitude, magnitude_negate, ← wholeMagnitude,
      hwhole, Bool.not_false, if_pos rfl]
    omega
  · rw [if_neg hn, hsign, hwhole, if_neg (by decide)]
    omega

/-- A double is rounded to a number that fits. -/
lemma fits_wholeMagnitude (d : Double) : Fits d.wholeMagnitude := by
  have hsignificand : d.magnitude.significand < 2 ^ 53 := by
    have hfraction : d.fractionField < 2 ^ 52 := Nat.mod_lt _ (by decide)
    rw [magnitude]
    split
    · show d.fractionField < 2 ^ 53
      omega
    · show 0x10000000000000 + d.fractionField < 2 ^ 53
      omega
  rcases Int.le_total 0 d.magnitude.exponent with he | he
  · -- the number is whole
    have hwhole : d.wholeMagnitude = d.magnitude.significand * 2 ^ d.magnitude.exponent.toNat := by
      refine wholeMagnitude_of_eq ?_
      rw [Decimal.Binary.numerator, Decimal.Binary.denominator,
        show (-d.magnitude.exponent).toNat = 0 by omega, Nat.shiftLeft_eq]
      simp
    rw [hwhole]
    exact fits_mul_two_pow hsignificand _
  · -- the number is less than `2 ^ 53`, so rounding can at most reach that
    refine fits_of_le ?_
    have hnum : d.magnitude.numerator = d.magnitude.significand := by
      rw [Decimal.Binary.numerator, show d.magnitude.exponent.toNat = 0 by omega]
      rfl
    have hden : 0 < d.magnitude.denominator := by
      simp [Decimal.Binary.denominator, Nat.shiftLeft_eq]
    rw [wholeMagnitude, hnum]
    refine Nat.le_of_lt_succ (Nat.div_lt_of_lt_mul ?_)
    rw [Nat.succ_eq_add_one]
    omega

/-- Rounding a double gives a number that is kept when it is turned into a double and back. -/
lemma toInt64_ofInt_toInt64 (d : Double) : (ofInt d.toInt64).toInt64 = d.toInt64 := by
  have hfits := fits_wholeMagnitude d
  rw [toInt64_eq d]
  split
  · rcases Int.le_total minInt64 (-(d.wholeMagnitude : Int)) with hle | hle
    · rw [Int.max_eq_left hle]
      refine toInt64_ofInt (by simpa using hfits) hle ?_
      rw [maxInt64]
      omega
    · rw [Int.max_eq_right hle]
      decide
  · rcases Int.le_total (d.wholeMagnitude : Int) maxInt64 with hle | hle
    · rw [Int.min_eq_left hle]
      refine toInt64_ofInt (by simpa using hfits) ?_ hle
      rw [minInt64]
      omega
    · rw [Int.min_eq_right hle]
      decide

end Chatflow.Double
