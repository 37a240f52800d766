import DeviceLink.Json.Reader
import DeviceLink.Json.Text
import DeviceLink.Proofs.Text.Utf8

/-! String literals: every text is read back from the literal that is written for it. -/
namespace DeviceLink.Json

open Text

/-- An octet that stands for itself inside a literal. -/
def IsPlain (b : UInt8) : Prop := b ≠ 0x22 ∧ b ≠ 0x5C ∧ ¬ b < 0x20

private theorem isPlain_of_le {b : UInt8} (h : 128 ≤ b.toNat) : IsPlain b := by
  refine ⟨?_, ?_, ?_⟩
  · rintro rfl
    exact absurd h (by decide)
  · rintro rfl
    exact absurd h (by decide)
  · rw [UInt8.lt_iff_toNat_lt]
    show ¬ b.toNat < 32
    omega

theorem isPlain_of_mem_encodeChar {c : Char} (hquote : c ≠ '"') (hslash : c ≠ '\\')
    (hcontrol : 32 ≤ c.toNat) {b : UInt8} (hb : b ∈ String.utf8EncodeChar c) : IsPlain b := by
  by_cases hascii : c.toNat < 128
  · have hne : ∀ d : Char, c ≠ d → c.toNat ≠ d.toNat := by
      intro d hd heq
      exact hd (Char.toNat_inj.mp heq)
    have hb' : b.toNat = c.toNat := by
      rw [encodeChar_of_lt hascii] at hb
      rw [List.mem_singleton.mp hb]
      exact toNat_ofNat (by omega)
    refine ⟨?_, ?_, ?_⟩
    · rintro rfl
      exact hne _ hquote hb'.symm
    · rintro rfl
      exact hne _ hslash hb'.symm
    · rw [UInt8.lt_iff_toNat_lt, hb']
      exact Nat.not_lt.mpr hcontrol
  · exact isPlain_of_le (le_of_mem_encodeChar (Nat.le_of_not_lt hascii) hb)

private theorem readHex4_control {n : Nat} (h : n < 32) (t : Octets) :
    readHex4 (octets ['0', '0', Nat.digitChar (n / 16), Nat.digitChar (n % 16)] ++ t) =
      .ok (n, t) := by
  have hall : ∀ n < 32, octets ['0', '0', Nat.digitChar (n / 16), Nat.digitChar (n % 16)] =
      [0x30, 0x30, UInt8.ofNat (Nat.digitChar (n / 16)).toNat,
        UInt8.ofNat (Nat.digitChar (n % 16)).toNat] ∧
      hexValue? (UInt8.ofNat (Nat.digitChar (n / 16)).toNat) = some (n / 16) ∧
      hexValue? (UInt8.ofNat (Nat.digitChar (n % 16)).toNat) = some (n % 16) := by
    decide
  obtain ⟨hoctets, hhigh, hlow⟩ := hall n h
  have hzero : hexValue? 0x30 = some 0 := by decide
  rw [hoctets]
  simp only [List.cons_append, List.nil_append, readHex4, hzero, hhigh, hlow]
  rw [show ((0 * 16 + 0) * 16 + n / 16) * 16 + n % 16 = n by omega]

/-- A character is written as an escape that is read back, or as it is. -/
theorem escaped_cases (c : Char) :
    (∃ s, octets (escaped c) = 0x5C :: s ∧ ∀ t, readEscape (s ++ t) = .ok (c, t)) ∨
      (escaped c = [c] ∧ ∀ b ∈ String.utf8EncodeChar c, IsPlain b) := by
  have hchar : ∀ {n}, c.toNat = n → c = Char.ofNat n := by
    rintro n rfl
    exact (Char.ofNat_toNat c).symm
  unfold escaped
  split_ifs with h₁ h₂ h₃ h₄ h₅ h₆ h₇ h₈
  · exact Or.inl ⟨[0x22], by decide, fun t => by rw [h₁]; rfl⟩
  · exact Or.inl ⟨[0x5C], by decide, fun t => by rw [h₂]; rfl⟩
  · exact Or.inl ⟨[0x6E], by decide, fun t => by rw [h₃]; rfl⟩
  · exact Or.inl ⟨[0x72], by decide, fun t => by rw [h₄]; rfl⟩
  · exact Or.inl ⟨[0x74], by decide, fun t => by rw [h₅]; rfl⟩
  · exact Or.inl ⟨[0x62], by decide, fun t => by rw [hchar h₆]; rfl⟩
  · exact Or.inl ⟨[0x66], by decide, fun t => by rw [hchar h₇]; rfl⟩
  · left
    refine ⟨0x75 :: octets ['0', '0', Nat.digitChar (c.toNat / 16), Nat.digitChar (c.toNat % 16)],
      rfl, fun t => ?_⟩
    have hhex := readHex4_control h₈ t
    have hlow : c.toNat < 0xD800 ∨ 0xDFFF < c.toNat := by omega
    rw [List.cons_append]
    simp only [readEscape, hhex, bind, Except.bind, if_pos hlow, ofNat_eq_of_eq (c := c) rfl]
    rfl
  · exact Or.inr ⟨rfl, fun b hb => isPlain_of_mem_encodeChar h₁ h₂ (by omega) hb⟩

theorem readBody_plain {u : Octets} (hu : ∀ b ∈ u, IsPlain b) (fuel : Nat) (body t : Octets) :
    readBody (fuel + u.length) body (u ++ t) = readBody fuel (u.reverse ++ body) t := by
  induction u generalizing body with
  | nil => rfl
  | cons b u ih =>
    obtain ⟨hquote, hslash, hcontrol⟩ := hu b List.mem_cons_self
    have hrest := ih (fun b hb => hu b (List.mem_cons_of_mem _ hb)) (b :: body)
    rw [List.length_cons, ← Nat.add_assoc, List.cons_append, readBody, if_neg hquote,
      if_neg hslash, if_neg hcontrol, hrest, List.reverse_cons, List.append_assoc]
    rfl

private theorem readBody_escape {s t : Octets} {c : Char} (h : readEscape s = .ok (c, t))
    (fuel : Nat) (body : Octets) : readBody (fuel + 1) body (0x5C :: s) =
      readBody fuel ((String.utf8EncodeChar c).reverse ++ body) t := by
  rw [readBody, if_neg (by decide), if_pos rfl, h]
  rfl

/-- A character takes at most one unit of fuel for each octet that is written for it. -/
theorem readBody_escaped (c : Char) : ∃ n, n ≤ (octets (escaped c)).length ∧
    ∀ fuel body t, readBody (fuel + n) body (octets (escaped c) ++ t) =
      readBody fuel ((String.utf8EncodeChar c).reverse ++ body) t := by
  rcases escaped_cases c with ⟨s, hs, hread⟩ | ⟨hs, hplain⟩
  · refine ⟨1, ?_, fun fuel body t => ?_⟩
    · rw [hs]
      exact Nat.le_add_left 1 _
    · rw [hs]
      exact readBody_escape (hread t) fuel body
  · have hoctets : octets (escaped c) = String.utf8EncodeChar c := by
      rw [hs]
      exact List.append_nil _
    rw [hoctets]
    exact ⟨_, Nat.le_refl _, readBody_plain hplain⟩

/-- The octets of a text are read up to the closing quote, whatever comes after it. -/
theorem readBody_flatMap {l : List Char} {fuel : Nat}
    (hfuel : (octets (l.flatMap escaped)).length < fuel) (body t : Octets) :
    readBody fuel body (octets (l.flatMap escaped) ++ 0x22 :: t) =
      .ok (body.reverse ++ octets l, t) := by
  induction l generalizing fuel body with
  | nil =>
    obtain ⟨n, rfl⟩ := Nat.exists_eq_add_one_of_ne_zero (Nat.ne_of_gt hfuel)
    show Except.ok _ = Except.ok _
    rw [octets_nil, List.append_nil]
  | cons c l ih =>
    rw [List.flatMap_cons, octets_append, List.length_append] at hfuel
    obtain ⟨n, hn, hread⟩ := readBody_escaped c
    obtain ⟨m, rfl⟩ : ∃ m, fuel = m + n := ⟨fuel - n, by omega⟩
    rw [List.flatMap_cons, octets_append, List.append_assoc, hread, ih (by omega),
      List.reverse_append, List.reverse_reverse, octets_cons, List.append_assoc]

theorem readString_literal (s : String) (t : Octets) :
    readString (octets (s.toList.flatMap escaped) ++ 0x22 :: t) = .ok (s, t) := by
  have hfuel : (octets (s.toList.flatMap escaped)).length <
      (octets (s.toList.flatMap escaped) ++ 0x22 :: t).length + 1 := by
    rw [List.length_append]
    omega
  have hdecode : decode? (octets s.toList) = some s := decode?_encode s
  rw [readString, readBody_flatMap hfuel]
  simp only [bind, Except.bind, List.reverse_nil, List.nil_append, hdecode]

theorem octets_literal (s : String) :
    octets (literal s) = 0x22 :: (octets (s.toList.flatMap escaped) ++ [0x22]) := by
  rw [literal, octets_cons, octets_append]
  rfl

end DeviceLink.Json
