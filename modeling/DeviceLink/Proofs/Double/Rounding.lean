import DeviceLink.Double.Basic
import Mathlib.Tactic.Linarith
import Mathlib.Tactic.Ring

/-! Rounding of ratios to doubles: how far the result is off, and below which bound it is
finite. -/
namespace DeviceLink

section Powers

variable {m n : Nat}

theorem twoTo_pos (n : Nat) : 0 < twoTo n := Nat.pow_pos (by decide)

theorem tenTo_pos (n : Nat) : 0 < tenTo n := Nat.pow_pos (by decide)

theorem twoTo_add (m n : Nat) : twoTo (m + n) = twoTo m * twoTo n := Nat.pow_add 2 m n

theorem twoTo_succ (n : Nat) : twoTo (n + 1) = twoTo n * 2 := Nat.pow_succ 2 n

theorem tenTo_add (m n : Nat) : tenTo (m + n) = tenTo m * tenTo n := Nat.pow_add 10 m n

theorem twoTo_le (h : m ≤ n) : twoTo m ≤ twoTo n := Nat.pow_le_pow_right (by decide) h

theorem tenTo_le (h : m ≤ n) : tenTo m ≤ tenTo n := Nat.pow_le_pow_right (by decide) h

theorem lt_of_tenTo_lt (h : tenTo m < tenTo n) : m < n :=
  (Nat.pow_lt_pow_iff_right (by decide)).mp h

end Powers

namespace Double

section Halves

variable {n d k : Nat}

/-- The nearest whole number is at most half a unit above. -/
theorem roundHalfEven_error (n d : Nat) : 2 * (roundHalfEven n d * d) ≤ 2 * n + d := by
  have hsplit : d * (n / d) + n % d = n := Nat.div_add_mod n d
  have hcomm : n / d * d = d * (n / d) := Nat.mul_comm _ _
  unfold roundHalfEven
  dsimp only
  split_ifs with hdown hup
  · omega
  · have hstep : (n / d + 1) * d = n / d * d + d := Nat.add_one_mul _ _
    omega
  · have hodd : n / d % 2 * d ≤ 1 * d := Nat.mul_le_mul_right d (by omega)
    rw [Nat.add_mul]
    omega

theorem div_le_roundHalfEven (n d : Nat) : n / d ≤ roundHalfEven n d := by
  unfold roundHalfEven
  dsimp only
  split_ifs <;> omega

theorem roundHalfEven_le (h : 2 * n < (2 * k + 1) * d) : roundHalfEven n d ≤ k := by
  have herror := roundHalfEven_error n d
  have hlt : roundHalfEven n d * d < (k + 1) * d := by
    have hexpand : (2 * k + 1) * d + d = 2 * ((k + 1) * d) := by ring
    omega
  exact Nat.le_of_lt_succ (Nat.lt_of_mul_lt_mul_right hlt)

theorem le_roundHalfEven (hd : 0 < d) (h : k * d ≤ n) : k ≤ roundHalfEven n d :=
  ((Nat.le_div_iff_mul_le hd).mpr h).trans (div_le_roundHalfEven n d)

end Halves

section Scale

variable {n d : Nat}

/-- The significand at the scale of a ratio has at most 53 bits, and exactly so many unless the
scale is the least one. -/
theorem scaleOfRatio_spec (hn : 0 < n) (hd : 0 < d) :
    n * twoTo 1074 < d * twoTo (scaleOfRatio n d + 53) ∧
      (0 < scaleOfRatio n d → d * twoTo (scaleOfRatio n d + 52) ≤ n * twoTo 1074) := by
  have hn₁ : twoTo n.log2 ≤ n := Nat.log2_self_le hn.ne'
  have hn₂ : n < twoTo (n.log2 + 1) := Nat.lt_log2_self
  have hd₁ : twoTo d.log2 ≤ d := Nat.log2_self_le hd.ne'
  have hd₂ : d < twoTo (d.log2 + 1) := Nat.lt_log2_self
  -- The guess from the lengths is exact or one too large.
  have hupper : n * twoTo 1074 < d * twoTo (n.log2 + 1022 - d.log2 + 53) := calc
    n * twoTo 1074 < twoTo (n.log2 + 1) * twoTo 1074 :=
      Nat.mul_lt_mul_of_pos_right hn₂ (twoTo_pos 1074)
    _ = twoTo (n.log2 + 1 + 1074) := (twoTo_add _ _).symm
    _ ≤ twoTo (d.log2 + (n.log2 + 1022 - d.log2 + 53)) := twoTo_le (by omega)
    _ = twoTo d.log2 * twoTo (n.log2 + 1022 - d.log2 + 53) := twoTo_add _ _
    _ ≤ d * twoTo (n.log2 + 1022 - d.log2 + 53) := Nat.mul_le_mul_right _ hd₁
  have hlower : 0 < n.log2 + 1022 - d.log2 - 1 →
      d * twoTo (n.log2 + 1022 - d.log2 - 1 + 52) ≤ n * twoTo 1074 := by
    intro hpos
    calc
      d * twoTo (n.log2 + 1022 - d.log2 - 1 + 52)
      _ ≤ twoTo (d.log2 + 1) * twoTo (n.log2 + 1022 - d.log2 - 1 + 52) :=
        Nat.mul_le_mul_right _ hd₂.le
      _ = twoTo (d.log2 + 1 + (n.log2 + 1022 - d.log2 - 1 + 52)) := (twoTo_add _ _).symm
      _ ≤ twoTo (n.log2 + 1074) := twoTo_le (by omega)
      _ = twoTo n.log2 * twoTo 1074 := twoTo_add _ _
      _ ≤ n * twoTo 1074 := Nat.mul_le_mul_right _ hn₁
  unfold scaleOfRatio
  dsimp only
  split_ifs with hguess
  · refine ⟨Nat.lt_of_lt_of_le hguess ?_, hlower⟩
    exact Nat.mul_le_mul_left d (twoTo_le (by omega))
  · exact ⟨hupper, fun _ => Nat.le_of_not_lt hguess⟩

def rounded (n d : Nat) : Nat := roundHalfEven (n * twoTo 1074) (d * twoTo (scaleOfRatio n d))

theorem scaled_pos (hd : 0 < d) (s : Nat) : 0 < d * twoTo s := Nat.mul_pos hd (twoTo_pos s)

theorem rounded_le (hn : 0 < n) (hd : 0 < d) : rounded n d ≤ twoTo 53 := by
  obtain ⟨hupper, -⟩ := scaleOfRatio_spec hn hd
  apply roundHalfEven_le
  have hpos := scaled_pos hd (scaleOfRatio n d)
  have hsplit : d * twoTo (scaleOfRatio n d + 53) =
      twoTo 53 * (d * twoTo (scaleOfRatio n d)) := by
    rw [twoTo_add]
    ring
  rw [hsplit] at hupper
  nlinarith

theorem le_rounded (hn : 0 < n) (hd : 0 < d) (hs : 0 < scaleOfRatio n d) :
    twoTo 52 ≤ rounded n d := by
  obtain ⟨-, hlower⟩ := scaleOfRatio_spec hn hd
  apply le_roundHalfEven (scaled_pos hd _)
  have hsplit : d * twoTo (scaleOfRatio n d + 52) =
      twoTo 52 * (d * twoTo (scaleOfRatio n d)) := by
    rw [twoTo_add]
    ring
  rw [← hsplit]
  exact hlower hs

theorem rounded_zero (d : Nat) : rounded 0 d = 0 := by
  unfold rounded roundHalfEven
  simp

end Scale

section Bits

theorem magnitudeBits_ofMagnitude {negative : Bool} {b : Nat} (hb : b < twoTo 63) :
    (ofMagnitude negative b).magnitudeBits = b := by
  have h63 : twoTo 63 = 9223372036854775808 := rfl
  unfold magnitudeBits ofMagnitude
  rw [UInt64.toNat_ofNat']
  rw [h63] at hb ⊢
  split_ifs <;> omega

theorem ofMagnitude_magnitudeBits (x : Double) :
    ofMagnitude x.isNegative x.magnitudeBits = x := by
  have h63 : twoTo 63 = 9223372036854775808 := rfl
  have hbits : x.bits.toNat < 18446744073709551616 := x.bits.toNat_lt
  have hwhole : (if x.isNegative then twoTo 63 + x.magnitudeBits else x.magnitudeBits) =
      x.bits.toNat := by
    unfold isNegative magnitudeBits
    rw [h63]
    simp only [decide_eq_true_eq]
    split_ifs <;> omega
  unfold ofMagnitude
  rw [hwhole, UInt64.ofNat_toNat]

/-- The bits of a magnitude of so many units at a scale, where there are at least `2 ^ 52` of them
above the least scale. -/
def bitsAt (scale units : Nat) : Nat :=
  if units < twoTo 52 then units else scale * twoTo 52 + units

theorem ofRatio_eq (n d : Nat) : ofRatio n d =
    ofMagnitude false (min infinityBits (bitsAt (scaleOfRatio n d) (rounded n d))) := rfl

theorem magnitudeBits_ofRatio (n d : Nat) : (ofRatio n d).magnitudeBits =
    min infinityBits (bitsAt (scaleOfRatio n d) (rounded n d)) := by
  have hbound : infinityBits < twoTo 63 := by decide
  rw [ofRatio_eq]
  exact magnitudeBits_ofMagnitude (Nat.lt_of_le_of_lt (Nat.min_le_left _ _) hbound)

/-- A carry past the last bit of the significand leaves the value as it is. -/
theorem ratio_of_bitsAt {x : Double} {scale units : Nat} (hx : x.magnitudeBits = bitsAt scale units)
    (hscale : 0 < scale → twoTo 52 ≤ units) (hunits : units ≤ twoTo 53) :
    x.ratio.1 = units * twoTo scale := by
  have h52 : twoTo 52 = 4503599627370496 := rfl
  have h53 : twoTo 53 = 9007199254740992 := rfl
  show x.significand * twoTo x.scale = _
  unfold significand Double.scale
  rw [hx]
  unfold bitsAt
  rw [h52] at hscale ⊢
  rw [h53] at hunits
  by_cases hsmall : units < 4503599627370496
  · have hzero : scale = 0 := by omega
    rw [if_pos hsmall, if_pos hsmall, hzero]
    have hdiv : units / 4503599627370496 - 1 = 0 := by omega
    rw [hdiv]
  · rw [if_neg hsmall, if_neg (by omega)]
    rcases Nat.lt_or_eq_of_le hunits with hlt | rfl
    · have hdiv : (scale * 4503599627370496 + units) / 4503599627370496 - 1 = scale := by omega
      have hmod : 4503599627370496 + (scale * 4503599627370496 + units) % 4503599627370496 =
          units := by omega
      rw [hdiv, hmod]
    · have hdiv : (scale * 4503599627370496 + 9007199254740992) / 4503599627370496 - 1 =
          scale + 1 := by omega
      have hmod : (scale * 4503599627370496 + 9007199254740992) % 4503599627370496 = 0 := by
        omega
      rw [hdiv, hmod, twoTo_add]
      show 4503599627370496 * (twoTo scale * 2) = _
      ring

end Bits

/-- Ratios from here on, over `2 ^ 1074`, are rounded to infinity. -/
def overflow : Nat := (twoTo 54 - 1) * twoTo 2044

section Ratios

variable {n d : Nat}

theorem isFinite_iff (x : Double) : x.isFinite = true ↔ x.magnitudeBits < infinityBits :=
  decide_eq_true_iff

theorem not_isInfinite {x : Double} (h : x.isFinite = true) : x.isInfinite = false := by
  rw [isFinite_iff] at h
  exact decide_eq_false h.ne

theorem isFinite_ofRatio (hd : 0 < d) (h : n * twoTo 1074 < d * overflow) :
    (ofRatio n d).isFinite = true := by
  have h52 : twoTo 52 = 4503599627370496 := rfl
  have h53 : twoTo 53 = 9007199254740992 := rfl
  have hinfinity : infinityBits = 2047 * 4503599627370496 := rfl
  have hbits : bitsAt (scaleOfRatio n d) (rounded n d) < infinityBits := by
    rcases Nat.eq_zero_or_pos n with rfl | hn
    · rw [rounded_zero]
      exact (by decide : (0 : Nat) < infinityBits)
    have hunits := rounded_le hn hd
    obtain ⟨-, hlower⟩ := scaleOfRatio_spec hn hd
    have hscale : scaleOfRatio n d < 2046 := by
      by_contra hge
      have hoverflow : overflow < twoTo (scaleOfRatio n d + 52) := calc
        overflow < twoTo 54 * twoTo 2044 :=
          Nat.mul_lt_mul_of_pos_right (by decide) (twoTo_pos 2044)
        _ = twoTo (54 + 2044) := (twoTo_add 54 2044).symm
        _ ≤ twoTo (scaleOfRatio n d + 52) := twoTo_le (by omega)
      have hlarge := Nat.mul_lt_mul_of_pos_left hoverflow hd
      have hscaled := hlower (by omega)
      omega
    unfold bitsAt
    rw [h52, hinfinity]
    rw [h53] at hunits
    by_cases htop : scaleOfRatio n d = 2045
    · -- At the largest scale the significand does not carry.
      have htopUnits : rounded n d ≤ 9007199254740991 := by
        unfold rounded
        rw [htop]
        apply roundHalfEven_le
        have hpower : overflow * 2 = (twoTo 54 - 1) * twoTo 2045 := by
          rw [overflow, twoTo_succ 2044, Nat.mul_assoc]
        have hodd : 2 * 9007199254740991 + 1 = twoTo 54 - 1 := rfl
        rw [hodd]
        calc
          2 * (n * twoTo 1074) < 2 * (d * overflow) := by omega
          _ = d * (overflow * 2) := by ring
          _ = (twoTo 54 - 1) * (d * twoTo 2045) := by
            rw [hpower]
            ring
      split_ifs <;> omega
    · split_ifs <;> omega
  rw [isFinite_iff, magnitudeBits_ofRatio]
  exact Nat.lt_of_le_of_lt (Nat.min_le_right _ _) hbits

theorem ratio_ofRatio (hn : 0 < n) (hd : 0 < d) (h : (ofRatio n d).isFinite = true) :
    (ofRatio n d).ratio.1 = rounded n d * twoTo (scaleOfRatio n d) := by
  have hmagnitude := magnitudeBits_ofRatio n d
  rw [isFinite_iff] at h
  have hbits : (ofRatio n d).magnitudeBits = bitsAt (scaleOfRatio n d) (rounded n d) := by
    omega
  exact ratio_of_bitsAt hbits (le_rounded hn hd) (rounded_le hn hd)

private theorem ratio_ofRatio_le (hd : 0 < d) (hnormal : d * twoTo 52 ≤ n * twoTo 1074)
    (h : (ofRatio n d).isFinite = true) :
    (ofRatio n d).ratio.1 * d * twoTo 53 ≤ n * twoTo 1074 * (twoTo 53 + 1) := by
  have hn : 0 < n := by
    rcases Nat.eq_zero_or_pos n with rfl | hn
    · have hpos := scaled_pos hd 52
      omega
    · exact hn
  have hunit : d * twoTo (scaleOfRatio n d + 52) ≤ n * twoTo 1074 := by
    rcases Nat.eq_zero_or_pos (scaleOfRatio n d) with hzero | hpos
    · rw [hzero]
      exact hnormal
    · exact (scaleOfRatio_spec hn hd).2 hpos
  have herror := roundHalfEven_error (n * twoTo 1074) (d * twoTo (scaleOfRatio n d))
  have hunit' : d * twoTo (scaleOfRatio n d) * twoTo 52 ≤ n * twoTo 1074 := by
    rw [Nat.mul_assoc, ← twoTo_add]
    exact hunit
  rw [ratio_ofRatio hn hd h]
  calc
    rounded n d * twoTo (scaleOfRatio n d) * d * twoTo 53
    _ = 2 * (rounded n d * (d * twoTo (scaleOfRatio n d))) * twoTo 52 := by
      rw [twoTo_succ 52]
      ring
    _ ≤ (2 * (n * twoTo 1074) + d * twoTo (scaleOfRatio n d)) * twoTo 52 :=
      Nat.mul_le_mul_right _ herror
    _ = n * twoTo 1074 * twoTo 53 + d * twoTo (scaleOfRatio n d) * twoTo 52 := by
      rw [twoTo_succ 52]
      ring
    _ ≤ n * twoTo 1074 * twoTo 53 + n * twoTo 1074 := Nat.add_le_add_left hunit' _
    _ = n * twoTo 1074 * (twoTo 53 + 1) := by ring

theorem ratio_ofNat_le (h : n * twoTo 1074 < overflow) :
    (ofNat n).ratio.1 * twoTo 53 ≤ n * twoTo 1074 * (twoTo 53 + 1) := by
  rcases Nat.eq_zero_or_pos n with rfl | hn
  · have hzero : (ofNat 0).ratio.1 = 0 := by decide +kernel
    rw [hzero, Nat.zero_mul]
    exact Nat.zero_le _
  · have hfinite : (ofRatio n 1).isFinite = true :=
      isFinite_ofRatio Nat.one_pos (h.trans_eq (Nat.one_mul overflow).symm)
    have hnormal : 1 * twoTo 52 ≤ n * twoTo 1074 := by
      have hpower : twoTo 52 ≤ twoTo 1074 := twoTo_le (by decide)
      rw [Nat.one_mul]
      exact hpower.trans (Nat.le_mul_of_pos_left _ hn)
    have hle := ratio_ofRatio_le Nat.one_pos hnormal hfinite
    rwa [Nat.mul_one] at hle

/-- Products up to here stay finite although either factor is rounded before. -/
def reach : Nat := (twoTo 55 - 10) * twoTo 969

private theorem reach_spec : reach * (twoTo 53 + 1) * (twoTo 53 + 1) * twoTo 1074 <
    overflow * twoTo 53 * twoTo 53 := by
  have hsignificands : (twoTo 55 - 10) * (twoTo 53 + 1) * (twoTo 53 + 1) <
      (twoTo 54 - 1) * twoTo 53 * twoTo 54 := by decide
  have hscales : twoTo 54 * (twoTo 969 * twoTo 1074) = twoTo 53 * twoTo 2044 := by
    rw [← twoTo_add, ← twoTo_add, ← twoTo_add]
  calc
    reach * (twoTo 53 + 1) * (twoTo 53 + 1) * twoTo 1074
    _ = (twoTo 55 - 10) * (twoTo 53 + 1) * (twoTo 53 + 1) * (twoTo 969 * twoTo 1074) := by
      rw [reach]
      ring
    _ < (twoTo 54 - 1) * twoTo 53 * twoTo 54 * (twoTo 969 * twoTo 1074) :=
      Nat.mul_lt_mul_of_pos_right hsignificands (Nat.mul_pos (twoTo_pos _) (twoTo_pos _))
    _ = (twoTo 54 - 1) * twoTo 53 * (twoTo 53 * twoTo 2044) := by
      rw [Nat.mul_assoc _ (twoTo 54), hscales]
    _ = overflow * twoTo 53 * twoTo 53 := by
      rw [overflow]
      ring

theorem isFinite_mul {m n : Nat} (hm : m * twoTo 1074 < overflow) (hn : n * twoTo 1074 < overflow)
    (h : m * n ≤ reach) : ((ofNat m).mul (ofNat n)).isFinite = true := by
  have hx := ratio_ofNat_le hm
  have hy := ratio_ofNat_le hn
  have hden : ∀ x : Double, x.ratio.2 = twoTo 1074 := by
    intro x
    rw [ratio]
  unfold mul
  rw [hden, hden]
  apply isFinite_ofRatio (Nat.mul_pos (twoTo_pos _) (twoTo_pos _))
  have hunit : 0 < twoTo 53 * twoTo 53 := Nat.mul_pos (twoTo_pos 53) (twoTo_pos 53)
  apply Nat.lt_of_mul_lt_mul_right (a := twoTo 53 * twoTo 53)
  calc
    (ofNat m).ratio.1 * (ofNat n).ratio.1 * twoTo 1074 * (twoTo 53 * twoTo 53)
    _ = (ofNat m).ratio.1 * twoTo 53 * ((ofNat n).ratio.1 * twoTo 53) * twoTo 1074 := by ring
    _ ≤ m * twoTo 1074 * (twoTo 53 + 1) * (n * twoTo 1074 * (twoTo 53 + 1)) * twoTo 1074 :=
      Nat.mul_le_mul_right _ (Nat.mul_le_mul hx hy)
    _ = m * n * (twoTo 53 + 1) * (twoTo 53 + 1) * twoTo 1074 * (twoTo 1074 * twoTo 1074) := by
      ring
    _ ≤ reach * (twoTo 53 + 1) * (twoTo 53 + 1) * twoTo 1074 * (twoTo 1074 * twoTo 1074) := by
      gcongr
    _ < overflow * twoTo 53 * twoTo 53 * (twoTo 1074 * twoTo 1074) :=
      Nat.mul_lt_mul_of_pos_right reach_spec (Nat.mul_pos (twoTo_pos _) (twoTo_pos _))
    _ = twoTo 1074 * twoTo 1074 * overflow * (twoTo 53 * twoTo 53) := by ring

end Ratios

end Double

end DeviceLink
