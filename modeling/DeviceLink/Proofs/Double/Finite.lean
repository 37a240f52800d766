import DeviceLink.Proofs.Double.Rounding

/-! Finite results: products that are not infinite, and quotients whose divisor is one at least. -/
namespace DeviceLink.Double

/-- No rounded ratio is undefined. -/
theorem isFinite_of_not_isInfinite {n d : Nat} (h : (ofRatio n d).isInfinite = false) :
    (ofRatio n d).isFinite = true := by
  have hne : (ofRatio n d).magnitudeBits ≠ infinityBits := of_decide_eq_false h
  have hle : (ofRatio n d).magnitudeBits ≤ infinityBits := by
    rw [magnitudeBits_ofRatio]
    exact Nat.min_le_left _ _
  rw [isFinite_iff]
  exact Nat.lt_of_le_of_ne hle hne

theorem isFinite_of_isZero {x : Double} (h : x.isZero = true) : x.isFinite = true := by
  have hzero : x.magnitudeBits = 0 := of_decide_eq_true h
  rw [isFinite_iff, hzero]
  decide

theorem isFinite_withSign {x : Double} (negative : Bool) (h : x.isFinite = true) :
    (withSign negative x).isFinite = true := by
  have hbound : infinityBits < twoTo 63 := by decide
  rw [isFinite_iff] at h ⊢
  rwa [withSign, magnitudeBits_ofMagnitude (h.trans hbound)]

theorem ratio_lt_overflow {x : Double} (h : x.isFinite = true) : x.ratio.1 < overflow := by
  have h52 : twoTo 52 = 4503599627370496 := rfl
  have hinfinity : infinityBits = 2047 * 4503599627370496 := rfl
  rw [isFinite_iff, hinfinity] at h
  have hsignificand : x.significand ≤ twoTo 53 - 1 := by
    have h53 : twoTo 53 = 9007199254740992 := rfl
    unfold significand
    rw [h52, h53]
    split_ifs <;> omega
  have hscale : x.scale ≤ 2045 := by
    unfold scale
    rw [h52]
    omega
  have hdouble : (twoTo 53 - 1) * 2 = twoTo 54 - 2 := by decide
  calc
    x.significand * twoTo x.scale
    _ ≤ (twoTo 53 - 1) * twoTo 2045 := Nat.mul_le_mul hsignificand (twoTo_le hscale)
    _ = (twoTo 54 - 2) * twoTo 2044 := by
      rw [twoTo_succ 2044, Nat.mul_comm (twoTo 2044), ← Nat.mul_assoc, hdouble]
    _ < overflow := Nat.mul_lt_mul_of_pos_right (by decide) (twoTo_pos 2044)

/-- A positive number is rounded to one at least. -/
theorem le_ratio_ofNat {n : Nat} (hn : 0 < n) (h : (ofNat n).isFinite = true) :
    twoTo 1074 ≤ (ofNat n).ratio.1 := by
  have hunits : (ofNat n).ratio.1 = rounded n 1 * twoTo (scaleOfRatio n 1) :=
    ratio_ofRatio hn Nat.one_pos h
  rw [hunits]
  by_cases hscale : scaleOfRatio n 1 ≤ 1074
  · have hsplit : twoTo (1074 - scaleOfRatio n 1) * twoTo (scaleOfRatio n 1) = twoTo 1074 := by
      rw [← twoTo_add, Nat.sub_add_cancel hscale]
    have hle : twoTo (1074 - scaleOfRatio n 1) ≤ rounded n 1 := by
      apply le_roundHalfEven (scaled_pos Nat.one_pos _)
      rw [Nat.one_mul, hsplit]
      exact Nat.le_mul_of_pos_left _ hn
    rw [← hsplit]
    exact Nat.mul_le_mul_right _ hle
  · have hle : twoTo 52 ≤ rounded n 1 := le_rounded hn Nat.one_pos (by omega)
    calc
      twoTo 1074 ≤ twoTo (scaleOfRatio n 1) := twoTo_le (by omega)
      _ ≤ rounded n 1 * twoTo (scaleOfRatio n 1) :=
        Nat.le_mul_of_pos_left _ ((twoTo_pos 52).trans_le hle)

theorem isFinite_div {x y : Double} (hx : x.isFinite = true) (hy : twoTo 1074 ≤ y.ratio.1) :
    (x.div y).isFinite = true := by
  have hden : ∀ z : Double, z.ratio.2 = twoTo 1074 := by
    intro z
    rw [ratio]
  have hpos := twoTo_pos 1074
  unfold div
  rw [hden, hden]
  apply isFinite_ofRatio (Nat.mul_pos hpos (hpos.trans_le hy))
  calc
    x.ratio.1 * twoTo 1074 * twoTo 1074
    _ < overflow * twoTo 1074 * twoTo 1074 :=
      Nat.mul_lt_mul_of_pos_right
        (Nat.mul_lt_mul_of_pos_right (ratio_lt_overflow hx) hpos) hpos
    _ ≤ overflow * y.ratio.1 * twoTo 1074 :=
      Nat.mul_le_mul_right _ (Nat.mul_le_mul_left _ hy)
    _ = twoTo 1074 * y.ratio.1 * overflow := by ring

end DeviceLink.Double
