import DeviceLink.Double.Shortest
import DeviceLink.Proofs.Double.Rounding

/-! The shortest decimals: they are positive and lie in the interval that rounds to the double. -/
namespace DeviceLink.Double

/-- A positive decimal that is not above the interval of a double. -/
def Reaches (x : Double) (c : Decimal) : Prop :=
  0 < c.numerator ∧ c.numerator * twoTo 1076 ≤ x.interval.2.2 * tenTo 400

section Normal

variable {c : Decimal}

theorem Decimal.numerator_normalizeFrom (fuel : Nat) (c : Decimal) :
    (c.normalizeFrom fuel).numerator = c.numerator := by
  induction fuel generalizing c with
  | zero => rfl
  | succ fuel ih =>
    unfold normalizeFrom
    split_ifs with h
    · have hcount : c.count / 10 * 10 = c.count := Nat.div_mul_cancel (Nat.dvd_of_mod_eq_zero h.2)
      have hplace : tenTo (c.place + 1) = 10 * tenTo c.place := Nat.pow_succ'
      rw [ih]
      unfold numerator
      rw [hplace, ← Nat.mul_assoc, hcount]
    · rfl

theorem Decimal.count_pos (h : 0 < c.numerator) : 0 < c.count :=
  Nat.pos_of_mul_pos_right h

end Normal

section Interval

variable {x : Double} {c : Decimal}

theorem significand_pos (h : x.isZero = false) : 0 < x.significand := by
  have h52 : twoTo 52 = 4503599627370496 := rfl
  have hbits : x.magnitudeBits ≠ 0 := of_decide_eq_false h
  unfold significand
  split_ifs <;> omega

theorem ratio_pos (h : x.isZero = false) : 0 < x.ratio.1 :=
  Nat.mul_pos (significand_pos h) (twoTo_pos _)

private theorem interval_fst_pos (h : x.isZero = false) : 0 < x.interval.1 := by
  have hratio : twoTo x.scale ≤ x.significand * twoTo x.scale :=
    Nat.le_mul_of_pos_left _ (significand_pos h)
  have hstep := twoTo_pos x.scale
  unfold interval
  dsimp only
  split_ifs <;> omega

/-- A decimal that rounds to a double lies in its interval. -/
theorem reaches_of_roundsFrom (hx : x.isZero = false) (h : x.roundsFrom c = true) :
    Reaches x c := by
  have hlow : 0 < x.interval.1 * tenTo 400 := Nat.mul_pos (interval_fst_pos hx) (tenTo_pos 400)
  have hbounds : x.interval.1 * tenTo 400 ≤ c.numerator * twoTo 1076 ∧
      c.numerator * twoTo 1076 ≤ x.interval.2.2 * tenTo 400 := by
    unfold roundsFrom at h
    dsimp only at h
    split_ifs at h
    · rw [Bool.and_eq_true, decide_eq_true_eq, decide_eq_true_eq] at h
      exact h
    · rw [Bool.and_eq_true, decide_eq_true_eq, decide_eq_true_eq] at h
      exact ⟨h.1.le, h.2.le⟩
  exact ⟨Nat.pos_of_mul_pos_right (Nat.lt_of_lt_of_le hlow hbounds.1), hbounds.2⟩

private theorem nearer_eq (tie : Tie) (x : Double) (down up : Decimal) :
    nearer tie x down up = down ∨ nearer tie x down up = up := by
  unfold nearer
  dsimp only
  by_cases hbelow : x.interval.2.1 * tenTo 400 - down.numerator * twoTo 1076 <
      up.numerator * twoTo 1076 - x.interval.2.1 * tenTo 400
  · exact Or.inl (if_pos hbelow)
  rw [if_neg hbelow]
  by_cases habove : up.numerator * twoTo 1076 - x.interval.2.1 * tenTo 400 <
      x.interval.2.1 * tenTo 400 - down.numerator * twoTo 1076
  · exact Or.inr (if_pos habove)
  rw [if_neg habove]
  cases tie with
  | even => exact ite_eq_or_eq _ _ _
  | up => exact Or.inr rfl

theorem roundsFrom_of_onGrid? {tie : Tie} {place : Nat} (h : onGrid? tie x place = some c) :
    x.roundsFrom c = true := by
  unfold onGrid? at h
  dsimp only at h
  split at h
  · rename_i hdown hup
    rw [← Option.some.inj h]
    rcases nearer_eq tie x _ _ with heq | heq
    · rw [heq, hdown]
    · rw [heq, hup]
  · rename_i hdown _
    rw [← Option.some.inj h, hdown]
  · rename_i _ hup
    rw [← Option.some.inj h, hup]
  · cases h

/-- The whole part of a double, at 400 places, is in reach as well. -/
theorem reaches_floor (hx : x.isZero = false) :
    Reaches x ⟨x.ratio.1 * tenTo 400 / x.ratio.2, 0⟩ := by
  have hden : x.ratio.2 = twoTo 1074 := by rw [ratio]
  have hnumerator : Decimal.numerator ⟨x.ratio.1 * tenTo 400 / x.ratio.2, 0⟩ =
      x.ratio.1 * tenTo 400 / twoTo 1074 := by
    have hone : tenTo 0 = 1 := rfl
    rw [Decimal.numerator, hden, hone, Nat.mul_one]
  have hpower : twoTo 1074 ≤ tenTo 400 := by decide +kernel
  have hquarter : twoTo 1076 = twoTo 1074 * 4 := by
    have hfour : twoTo 2 = 4 := rfl
    rw [← hfour, ← twoTo_add]
  have hmul : x.ratio.1 * tenTo 400 / twoTo 1074 * twoTo 1074 ≤ x.ratio.1 * tenTo 400 :=
    Nat.div_mul_le_self _ _
  have hmid : 4 * x.ratio.1 ≤ x.interval.2.2 := Nat.le_add_right _ _
  unfold Reaches
  rw [hnumerator]
  constructor
  · apply Nat.div_pos _ (twoTo_pos _)
    exact hpower.trans (Nat.le_mul_of_pos_left _ (ratio_pos hx))
  · calc
      x.ratio.1 * tenTo 400 / twoTo 1074 * twoTo 1076
      _ = x.ratio.1 * tenTo 400 / twoTo 1074 * twoTo 1074 * 4 := by rw [hquarter, Nat.mul_assoc]
      _ ≤ x.ratio.1 * tenTo 400 * 4 := Nat.mul_le_mul_right 4 hmul
      _ = 4 * x.ratio.1 * tenTo 400 := by ring
      _ ≤ x.interval.2.2 * tenTo 400 := Nat.mul_le_mul_right _ hmid

theorem reaches_shortest (tie : Tie) (hx : x.isZero = false) : Reaches x (x.shortest tie) := by
  unfold shortest Reaches
  dsimp only
  rw [Decimal.normalize, Decimal.numerator_normalizeFrom]
  cases hfind : (List.range 17).findSome? fun n => onGrid? tie x (x.leadingPlace - n) with
  | none => exact reaches_floor hx
  | some c =>
    obtain ⟨n, -, hn⟩ := List.exists_of_findSome?_eq_some hfind
    exact reaches_of_roundsFrom hx (roundsFrom_of_onGrid? hn)

/-- But for the two largest doubles, the interval ends below what two more roundings keep
finite. -/
theorem interval_le_reach (h : x.magnitudeBits + 2 < infinityBits) :
    x.interval.2.2 ≤ reach * twoTo 1076 := by
  have h52 : twoTo 52 = 4503599627370496 := rfl
  have hinfinity : infinityBits = 2047 * 4503599627370496 := rfl
  have hreach : reach * twoTo 1076 = (twoTo 55 - 10) * twoTo 2045 := by
    rw [reach, Nat.mul_assoc, ← twoTo_add]
  have hlast : twoTo 55 - 10 = 36028797018963958 := rfl
  have hend : x.interval.2.2 = (4 * x.significand + 2) * twoTo x.scale := by
    unfold interval
    dsimp only
    ring
  rw [hinfinity] at h
  rw [hend, hreach, hlast]
  by_cases htop : x.scale = 2045
  · have hsignificand : x.significand ≤ 9007199254740989 := by
      unfold Double.scale at htop
      unfold significand
      rw [h52] at htop ⊢
      split_ifs <;> omega
    rw [htop]
    exact Nat.mul_le_mul_right _ (by omega)
  · have hsignificand : x.significand < 9007199254740992 := by
      unfold significand
      rw [h52]
      split_ifs <;> omega
    have hscale : x.scale ≤ 2044 := by
      unfold Double.scale at htop ⊢
      rw [h52] at htop ⊢
      omega
    calc
      (4 * x.significand + 2) * twoTo x.scale ≤ (36028797018963958 * 2) * twoTo 2044 :=
        Nat.mul_le_mul (by omega) (twoTo_le hscale)
      _ = 36028797018963958 * twoTo 2045 := by
        rw [twoTo_succ 2044]
        ring

theorem numerator_shortest_le (tie : Tie) (hx : x.isZero = false)
    (h : x.magnitudeBits + 2 < infinityBits) :
    (x.shortest tie).numerator ≤ reach * tenTo 400 := by
  obtain ⟨-, hle⟩ := reaches_shortest tie hx
  apply Nat.le_of_mul_le_mul_right _ (twoTo_pos 1076)
  calc
    (x.shortest tie).numerator * twoTo 1076 ≤ x.interval.2.2 * tenTo 400 := hle
    _ ≤ reach * twoTo 1076 * tenTo 400 := Nat.mul_le_mul_right _ (interval_le_reach h)
    _ = reach * tenTo 400 * twoTo 1076 := by ring

end Interval

end DeviceLink.Double
