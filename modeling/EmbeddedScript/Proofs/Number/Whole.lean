import EmbeddedScript.Number.Double
import Mathlib.Algebra.Ring.Nat

/-!
# Whole numbers

A natural number below `2 ^ 53` is a double exactly, and no other double is that number,
the sign of zero apart. So **reading a double as a natural number and making a double of
a natural number are inverse** as far as doubles are compared by number
(`Double.toNat?_eq_some_iff_numEq`), which is what it takes for a length
that is written to be the length that is read.
-/

namespace EmbeddedScript.Double

variable {x : Double} {n b f : Nat}

/-! ## Fields -/

theorem toNat_bits_ofMagnitude (hb : b < 2048) (hf : f < hiddenBit) :
    (ofMagnitude false (b * hiddenBit + f)).bits.toNat = b * hiddenBit + f := by
  unfold hiddenBit at *
  simp only [ofMagnitude, Bool.false_eq_true, if_false, Nat.zero_add, UInt64.toNat_ofNat']
  omega

theorem biased_ofMagnitude (hb : b < 2048) (hf : f < hiddenBit) :
    (ofMagnitude false (b * hiddenBit + f)).biased = b := by
  rw [biased, toNat_bits_ofMagnitude hb hf]
  unfold hiddenBit at *
  omega

theorem fraction_ofMagnitude (hb : b < 2048) (hf : f < hiddenBit) :
    (ofMagnitude false (b * hiddenBit + f)).fraction = f := by
  rw [fraction, toNat_bits_ofMagnitude hb hf]
  unfold hiddenBit at *
  omega

/-- A number without its sign bit is put together from its fields. -/
theorem eq_ofMagnitude_of_not_negative (hx : x.negative = false) :
    x = ofMagnitude false (x.biased * hiddenBit + x.fraction) := by
  have hlt : x.bits.toNat < signBit := by simpa [negative] using hx
  have hfields : x.biased * hiddenBit + x.fraction = x.bits.toNat := by
    unfold biased fraction signBit hiddenBit at *
    omega
  obtain ⟨bits⟩ := x
  rw [hfields, ofMagnitude, Double.mk.injEq]
  simp

/-! ## Made from natural numbers -/

/-- Doubled up to the place of the hidden bit, a number fills a significand. -/
theorem mul_pow_log2_bounds (h0 : n ≠ 0) (hn : n < 2 ^ 53) :
    n.log2 ≤ 52 ∧ hiddenBit ≤ n * 2 ^ (52 - n.log2) ∧ n * 2 ^ (52 - n.log2) < 2 * hiddenBit := by
  have hlog : n.log2 ≤ 52 := Nat.le_of_lt_succ ((Nat.log2_lt h0).2 hn)
  have hhidden : hiddenBit = 2 ^ n.log2 * 2 ^ (52 - n.log2) := by
    rw [← Nat.pow_add, Nat.add_sub_cancel' hlog]
    rfl
  refine ⟨hlog, ?_, ?_⟩
  · rw [hhidden]
    exact Nat.mul_le_mul_right _ (Nat.log2_self_le h0)
  · rw [hhidden, ← Nat.mul_assoc, ← Nat.pow_succ']
    exact Nat.mul_lt_mul_of_pos_right Nat.lt_log2_self (Nat.pow_pos (by decide))

/-- A number that fills a significand when it is doubled so often has its highest bit there. -/
theorem log2_eq_of_mul_pow_bounds {d : Nat} (h0 : n ≠ 0) (hd : d ≤ 52)
    (hlow : hiddenBit ≤ n * 2 ^ d) (hhigh : n * 2 ^ d < 2 * hiddenBit) : n.log2 = 52 - d := by
  have hsplit : 2 ^ (52 - d) * 2 ^ d = hiddenBit := by
    rw [← Nat.pow_add, Nat.sub_add_cancel hd]
    rfl
  rw [Nat.log2_eq_iff h0]
  constructor
  · refine Nat.le_of_mul_le_mul_right ?_ (Nat.pow_pos (by decide) : 0 < 2 ^ d)
    rwa [hsplit]
  · refine Nat.lt_of_mul_lt_mul_right (a := 2 ^ d) ?_
    rwa [Nat.pow_succ', Nat.mul_assoc, hsplit]

/-- **The double of a natural number** below `2 ^ 53` is the number itself, moved up until
its highest bit is the hidden one. -/
theorem ofNat_eq (h0 : n ≠ 0) (hn : n < 2 ^ 53) :
    ofNat n = ofMagnitude false
      ((n.log2 + 1023) * hiddenBit + (n * 2 ^ (52 - n.log2) - hiddenBit)) := by
  obtain ⟨hlog, hlow, hhigh⟩ := mul_pow_log2_bounds h0 hn
  have hlast : max ((0 : Int) + n.log2 - 52) (-1074) = -((52 - n.log2 : Nat) : Int) := by omega
  have hshift : ((0 : Int) - -((52 - n.log2 : Nat) : Int)).toNat = 52 - n.log2 := by omega
  have hbias : (-((52 - n.log2 : Nat) : Int) + 1074).toNat = n.log2 + 1022 := by omega
  have hle : -((52 - n.log2 : Nat) : Int) ≤ 0 := by omega
  have hmagnitude : (n.log2 + 1022) * hiddenBit + n * 2 ^ (52 - n.log2)
      = (n.log2 + 1023) * hiddenBit + (n * 2 ^ (52 - n.log2) - hiddenBit) := by
    rw [Nat.add_mul, Nat.add_mul n.log2]
    omega
  simp only [ofNat, round, h0, if_false, hlast, if_pos hle, hshift, hbias, Nat.shiftLeft_eq,
    hmagnitude]
  refine if_neg ?_
  unfold hiddenBit at *
  omega

/-! ## Read as natural numbers -/

@[simp] theorem ofNat_zero : ofNat 0 = zero := rfl

/-- **A whole number that was made is read back.** -/
theorem toNat?_ofNat (hn : n < 2 ^ 53) : (ofNat n).toNat? = some n := by
  rcases eq_or_ne n 0 with rfl | h0
  · decide
  obtain ⟨hlog, hlow, hhigh⟩ := mul_pow_log2_bounds h0 hn
  have hb : n.log2 + 1023 < 2048 := by omega
  have hf : n * 2 ^ (52 - n.log2) - hiddenBit < hiddenBit := by omega
  have hbiased := ofNat_eq h0 hn ▸ biased_ofMagnitude hb hf
  have hfraction := ofNat_eq h0 hn ▸ fraction_ofMagnitude hb hf
  have hsignificand : (ofNat n).significand = n * 2 ^ (52 - n.log2) := by
    rw [significand, hbiased, if_neg (by omega), hfraction, Nat.sub_add_cancel hlow]
  have hexponent : (ofNat n).exponent = -((52 - n.log2 : Nat) : Int) := by
    rw [exponent, hbiased, if_neg (by omega)]
    omega
  have hpositive : (ofNat n).negative = false := by
    rw [negative, ofNat_eq h0 hn, toNat_bits_ofMagnitude hb hf]
    unfold hiddenBit signBit at *
    simp only [decide_eq_false_iff_not]
    omega
  have hintegral : (ofNat n).isIntegral = true := by
    rw [isIntegral, decide_eq_true_iff, hbiased, hexponent, hsignificand, Int.neg_neg,
      Int.toNat_natCast, Nat.shiftLeft_eq, Nat.one_mul]
    exact ⟨by omega, Nat.mul_mod_left _ _⟩
  have hmagnitude : (ofNat n).integralMagnitude = n := by
    have hzero : (-((52 - n.log2 : Nat) : Int)).toNat = 0 := by omega
    rw [integralMagnitude, hexponent, hsignificand, hzero, Int.neg_neg, Int.toNat_natCast,
      Nat.shiftLeft_zero, Nat.shiftRight_eq_div_pow, Nat.mul_div_cancel _ (Nat.pow_pos (by decide))]
  rw [toNat?, hintegral, hpositive, hmagnitude]
  rfl

/-- What is read as a natural number is integral and, but for zero, has no sign. -/
theorem toNat?_eq_some_iff :
    x.toNat? = some n ↔ (x.biased ≠ 2047 ∧ x.significand % 2 ^ (-x.exponent).toNat = 0)
      ∧ (x.negative = false ∨ x.isZero = true) ∧ x.integralMagnitude = n := by
  simp [toNat?, isIntegral, Nat.shiftLeft_eq, and_assoc]

/-- A number with an exponent above zero is too large. -/
theorem exponent_le_of_integralMagnitude_lt (hb : x.biased ≠ 0)
    (hn : x.integralMagnitude < 2 ^ 53) : x.exponent ≤ 0 := by
  refine Int.not_lt.1 fun hpos => ?_
  have hsignificand : hiddenBit ≤ x.significand := by
    rw [significand, if_neg hb]
    exact Nat.le_add_left _ _
  have hzero : (-x.exponent).toNat = 0 := by omega
  have htwo : 2 ^ 1 ≤ 2 ^ x.exponent.toNat := Nat.pow_le_pow_right (by decide) (by omega)
  rw [integralMagnitude, hzero, Nat.shiftRight_zero, Nat.shiftLeft_eq] at hn
  have := Nat.mul_le_mul hsignificand htwo
  unfold hiddenBit at this
  omega

/-- **No other double is that number**, but for zero with a sign. -/
theorem eq_ofNat_of_toNat? (hx : x.toNat? = some n) (hz : x.isZero = false) (hn : n < 2 ^ 53) :
    x = ofNat n := by
  obtain ⟨⟨hfinite, hmod⟩, hsign, hmagnitude⟩ := toNat?_eq_some_iff.1 hx
  have hpositive : x.negative = false := hsign.resolve_right (by simp [hz])
  have hfraction : x.fraction < hiddenBit := Nat.mod_lt _ (by decide)
  have hb : x.biased ≠ 0 := by
    -- a subnormal number is a fraction of one
    intro hb
    rw [exponent, if_pos hb, significand, if_pos hb, Nat.mod_eq_of_lt] at hmod
    · simp [isZero, hb, hmod] at hz
    · have h52 : 52 ≤ (-(-1074 : Int)).toNat := by decide
      exact Nat.lt_of_lt_of_le hfraction (Nat.pow_le_pow_right (by decide : 0 < 2) h52)
  have hexponent : x.exponent = (x.biased : Int) - 1075 := if_neg hb
  have hle := exponent_le_of_integralMagnitude_lt hb (hmagnitude ▸ hn)
  obtain ⟨d, hd⟩ : ∃ d, x.biased + d = 1075 := ⟨1075 - x.biased, by omega⟩
  have hshift : (-x.exponent).toNat = d := by omega
  have hsignificand : x.significand = x.fraction + hiddenBit := if_neg hb
  rw [hshift] at hmod
  -- the significand is the number, moved up as far as the exponent says
  have hmul : n * 2 ^ d = x.fraction + hiddenBit := by
    rw [← hmagnitude, integralMagnitude, hshift, Int.toNat_eq_zero.2 hle, Nat.shiftLeft_zero,
      Nat.shiftRight_eq_div_pow, Nat.div_mul_cancel (Nat.dvd_of_mod_eq_zero hmod), hsignificand]
  have h0 : n ≠ 0 := by
    rintro rfl
    rw [Nat.zero_mul] at hmul
    exact absurd hmul.symm (Nat.ne_of_gt (Nat.add_pos_right _ (by decide)))
  have hd52 : d ≤ 52 := by
    have h1 : 2 ^ d ≤ n * 2 ^ d := Nat.le_mul_of_pos_left _ (Nat.pos_of_ne_zero h0)
    have h2 : 2 ^ d < 2 ^ 53 := by
      unfold hiddenBit at *
      omega
    exact Nat.le_of_lt_succ ((Nat.pow_lt_pow_iff_right (by decide)).1 h2)
  have hlog : n.log2 = 52 - d :=
    log2_eq_of_mul_pow_bounds h0 hd52 (by omega) (by omega)
  rw [eq_ofMagnitude_of_not_negative hpositive, ofNat_eq h0 hn, hlog, Nat.sub_sub_self hd52, hmul,
    Nat.add_sub_cancel]
  congr 3
  omega

/-- Either zero is the number zero. -/
theorem toNat?_of_isZero (hz : x.isZero = true) : x.toNat? = some 0 := by
  obtain ⟨hb, hf⟩ : x.biased = 0 ∧ x.fraction = 0 := by simpa [isZero] using hz
  have hsignificand : x.significand = 0 := by rw [significand, if_pos hb, hf]
  refine toNat?_eq_some_iff.2 ⟨⟨by omega, by rw [hsignificand, Nat.zero_mod]⟩, .inr hz, ?_⟩
  rw [integralMagnitude, hsignificand]
  simp

/-- **A double is read as a natural number when it compares as that number.** -/
theorem toNat?_eq_some_iff_numEq (hn : n < 2 ^ 53) :
    x.toNat? = some n ↔ (ofNat n).numEq x = true := by
  constructor
  · intro hx
    obtain ⟨⟨hfinite, -⟩, -⟩ := toNat?_eq_some_iff.1 hx
    have hnan : x.isNaN = false := by simp [isNaN, hfinite]
    cases hz : x.isZero with
    | true =>
      obtain rfl : 0 = n := Option.some.inj ((toNat?_of_isZero hz).symm.trans hx)
      have hzero : zero.isNaN = false ∧ zero.isZero = true := by decide
      simp [numEq, hnan, hz, hzero]
    | false =>
      rw [← eq_ofNat_of_toNat? hx hz hn]
      simp [numEq, hnan]
  · intro heq
    obtain ⟨-, rfl | ⟨hz, hz'⟩⟩ : _ ∧ (ofNat n = x ∨ (ofNat n).isZero = true ∧ x.isZero = true) := by
      simpa [numEq] using heq
    · exact toNat?_ofNat hn
    · rw [toNat?_of_isZero hz', ← toNat?_of_isZero hz, toNat?_ofNat hn]

end EmbeddedScript.Double
