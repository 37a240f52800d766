import DeviceLink.Proofs.Text.Utf8
import Mathlib.Data.String.Basic

/-! The order of texts is the order of their octets. -/
namespace DeviceLink.Text

theorem cons_ofNat_lt {m n : Nat} {s t : Octets} (hn : n < 256)
    (h : m < n ∨ m = n ∧ s < t) : UInt8.ofNat m :: s < UInt8.ofNat n :: t := by
  rw [List.cons_lt_cons_iff]
  rcases h with hlt | ⟨rfl, hst⟩
  · left
    rw [UInt8.lt_iff_toNat_lt, toNat_ofNat hn, toNat_ofNat (by omega)]
    exact hlt
  · exact Or.inr ⟨rfl, hst⟩

/-- Last octets differ where the numbers agree in all but six bits. -/
theorem tail_lt {m n : Nat} (h : m < n) (hdiv : m / 64 = n / 64) (s t : Octets) :
    UInt8.ofNat (m % 64 + 128) :: s < UInt8.ofNat (n % 64 + 128) :: t := by
  apply cons_ofNat_lt
  · omega
  · left
    omega

theorem tails_two_lt {m n : Nat} (h : m < n) (hdiv : m / 4096 = n / 4096) (s t : Octets) :
    UInt8.ofNat (m / 64 % 64 + 128) :: UInt8.ofNat (m % 64 + 128) :: s <
      UInt8.ofNat (n / 64 % 64 + 128) :: UInt8.ofNat (n % 64 + 128) :: t := by
  apply cons_ofNat_lt
  · omega
  · rcases Nat.lt_or_eq_of_le (show m / 64 ≤ n / 64 by omega) with hlt | heq
    · left
      omega
    · right
      exact ⟨by omega, tail_lt h heq s t⟩

private theorem tails_three_lt {m n : Nat} (h : m < n) (hdiv : m / 262144 = n / 262144)
    (s t : Octets) :
    UInt8.ofNat (m / 4096 % 64 + 128) :: UInt8.ofNat (m / 64 % 64 + 128) ::
        UInt8.ofNat (m % 64 + 128) :: s <
      UInt8.ofNat (n / 4096 % 64 + 128) :: UInt8.ofNat (n / 64 % 64 + 128) ::
        UInt8.ofNat (n % 64 + 128) :: t := by
  apply cons_ofNat_lt
  · omega
  · rcases Nat.lt_or_eq_of_le (show m / 4096 ≤ n / 4096 by omega) with hlt | heq
    · left
      omega
    · right
      exact ⟨by omega, tails_two_lt h heq s t⟩

/-- Longer forms have larger lead octets; forms of one length compare from the lead on. -/
theorem encodeChar_lt {c d : Char} (h : c < d) (s t : Octets) :
    String.utf8EncodeChar c ++ s < String.utf8EncodeChar d ++ t := by
  have hlt : c.toNat < d.toNat := h
  have hbound := toNat_bounds d
  have hval : ∀ c : Char, c.val.toNat = c.toNat := fun _ => rfl
  generalize hm : c.toNat = m at hlt
  generalize hn : d.toNat = n at hlt hbound
  unfold String.utf8EncodeChar
  simp only [hval, hm, hn]
  -- By the form of the smaller character; that of the larger one is no shorter.
  by_cases hm₁ : m ≤ 127
  · rw [if_pos hm₁]
    split_ifs
    · exact cons_ofNat_lt (by omega) (Or.inl hlt)
    · exact cons_ofNat_lt (by omega) (Or.inl (by omega))
    · exact cons_ofNat_lt (by omega) (Or.inl (by omega))
    · exact cons_ofNat_lt (by omega) (Or.inl (by omega))
  have hn₁ : ¬ n ≤ 127 := by omega
  rw [if_neg hm₁, if_neg hn₁]
  by_cases hm₂ : m ≤ 2047
  · rw [if_pos hm₂]
    split_ifs
    · rcases Nat.lt_or_eq_of_le (show m / 64 ≤ n / 64 by omega) with hlead | hlead
      · exact cons_ofNat_lt (by omega) (Or.inl (by omega))
      · exact cons_ofNat_lt (by omega) (Or.inr ⟨by omega, tail_lt hlt hlead s t⟩)
    · exact cons_ofNat_lt (by omega) (Or.inl (by omega))
    · exact cons_ofNat_lt (by omega) (Or.inl (by omega))
  have hn₂ : ¬ n ≤ 2047 := by omega
  rw [if_neg hm₂, if_neg hn₂]
  by_cases hm₃ : m ≤ 65535
  · rw [if_pos hm₃]
    split_ifs
    · rcases Nat.lt_or_eq_of_le (show m / 4096 ≤ n / 4096 by omega) with hlead | hlead
      · exact cons_ofNat_lt (by omega) (Or.inl (by omega))
      · exact cons_ofNat_lt (by omega) (Or.inr ⟨by omega, tails_two_lt hlt hlead s t⟩)
    · exact cons_ofNat_lt (by omega) (Or.inl (by omega))
  have hn₃ : ¬ n ≤ 65535 := by omega
  rw [if_neg hm₃, if_neg hn₃]
  rcases Nat.lt_or_eq_of_le (show m / 262144 ≤ n / 262144 by omega) with hlead | hlead
  · exact cons_ofNat_lt (by omega) (Or.inl (by omega))
  · exact cons_ofNat_lt (by omega) (Or.inr ⟨by omega, tails_three_lt hlt hlead s t⟩)

private theorem encodeChar_ne_nil (c : Char) : String.utf8EncodeChar c ≠ [] := by
  obtain ⟨a, u, hc, -⟩ := unit_encode c []
  rw [hc]
  exact List.cons_ne_nil a u

private theorem octets_lt {l l' : List Char} (h : l < l') : octets l < octets l' := by
  induction l generalizing l' with
  | nil =>
    cases l' with
    | nil => cases h
    | cons d l' =>
      obtain ⟨b, u, hb⟩ := List.exists_cons_of_ne_nil (encodeChar_ne_nil d)
      rw [octets_nil, octets_cons, hb]
      exact List.nil_lt_cons _ _
  | cons c l ih =>
    cases l' with
    | nil => cases h
    | cons d l' =>
      rw [octets_cons, octets_cons]
      rcases List.cons_lt_cons_iff.mp h with hlt | ⟨rfl, hrest⟩
      · exact encodeChar_lt hlt _ _
      · exact List.append_left_lt (ih hrest)

/-- Texts stand in the order of their octets. -/
theorem encode_lt {s t : String} (h : s < t) : encode s < encode t :=
  octets_lt (String.lt_iff_toList_lt.mp h)

end DeviceLink.Text
