import DeviceLink.Json.Text
import DeviceLink.Proofs.Json.Record
import DeviceLink.Proofs.Text.Numeral

/-! Number literals: a whole number of 64 bits is read back from its numeral. -/
namespace DeviceLink.Text

theorem toNat_of_isDigit {c : Char} (h : c.isDigit = true) : 48 ≤ c.toNat ∧ c.toNat ≤ 57 := by
  unfold Char.isDigit at h
  rw [Bool.and_eq_true, decide_eq_true_eq, decide_eq_true_eq] at h
  exact h

/-- Only zero has a numeral that begins with a zero. -/
theorem decimal_cases (n : Nat) :
    n = 0 ∧ decimal n = ['0'] ∨ ∃ c l, decimal n = c :: l ∧ c ≠ '0' := by
  induction n using Nat.strongRecOn with
  | ind n ih =>
    unfold decimal at ih ⊢
    by_cases hn : n < 10
    · rw [Nat.toDigits_of_lt_base hn]
      by_cases hzero : n = 0
      · subst hzero
        exact Or.inl ⟨rfl, rfl⟩
      · refine Or.inr ⟨_, [], rfl, fun hc => hzero ?_⟩
        have hnat := congrArg Char.toNat hc
        rw [Nat.toNat_digitChar_of_lt_ten hn] at hnat
        have hchar : '0'.toNat = 48 := rfl
        omega
    · have hle : 10 ≤ n := Nat.le_of_not_lt hn
      rw [Nat.toDigits_of_base_le (by decide) hle]
      rcases ih (n / 10) (by omega) with ⟨hzero, -⟩ | ⟨c, l, hl, hc⟩
      · omega
      · rw [hl]
        exact Or.inr ⟨c, _, rfl, hc⟩

theorem le_ofDigitChars (l : List Char) (m : Nat) : m ≤ Nat.ofDigitChars 10 l m := by
  induction l generalizing m with
  | nil => exact Nat.le_refl m
  | cons c l ih =>
    rw [Nat.ofDigitChars_cons]
    have hrest := ih (10 * m + (c.toNat - '0'.toNat))
    omega

end DeviceLink.Text

namespace DeviceLink.Json

open Text

theorem octets_digit {c : Char} (h : c.isDigit = true) (l : List Char) :
    octets (c :: l) = UInt8.ofNat c.toNat :: octets l := by
  have hc := toNat_of_isDigit h
  rw [octets_cons, encodeChar_of_lt (by omega)]
  rfl

theorem isDigit_octet {c : Char} (h : c.isDigit = true) :
    isDigit (UInt8.ofNat c.toNat) = true := by
  have hc := toNat_of_isDigit h
  unfold isDigit
  rw [Bool.and_eq_true, decide_eq_true_eq, decide_eq_true_eq, UInt8.le_iff_toNat_le,
    UInt8.le_iff_toNat_le, toNat_ofNat (by omega)]
  exact hc

theorem digitValue_octet {c : Char} (h : c.isDigit = true) :
    digitValue (UInt8.ofNat c.toNat) = c.toNat - '0'.toNat := by
  have hc := toNat_of_isDigit h
  unfold digitValue
  rw [toNat_ofNat (by omega)]
  rfl

/-- What may come after a value goes on with no number. -/
theorem Ends.cases {t : Octets} (h : Ends t) :
    t = [] ∨ ∃ b s, t = b :: s ∧ isDigit b = false ∧ b ≠ 0x2E ∧
      Literal.isExponentMark b = false := by
  cases t with
  | nil => exact Or.inl rfl
  | cons b s =>
    refine Or.inr ⟨b, s, rfl, ?_⟩
    rcases h b rfl with rfl | rfl | rfl <;> decide

/-- What follows digits and goes on with none. -/
def NoDigit (s : Octets) : Prop := s = [] ∨ ∃ b u, s = b :: u ∧ isDigit b = false

theorem noDigit_cons {b : UInt8} (hb : isDigit b = false) (u : Octets) : NoDigit (b :: u) :=
  Or.inr ⟨b, u, rfl, hb⟩

theorem Ends.noDigit {t : Octets} (h : Ends t) : NoDigit t := by
  rcases h.cases with rfl | ⟨b, u, rfl, hb, -, -⟩
  · exact Or.inl rfl
  · exact noDigit_cons hb u

def digitValues (l : List Char) : List Nat := l.map fun c => c.toNat - '0'.toNat

theorem spanDigits_octets {l : List Char} (hl : ∀ c ∈ l, c.isDigit = true) {t : Octets}
    (ht : NoDigit t) :
    spanDigits (octets l ++ t) = (digitValues l, t) := by
  unfold spanDigits digitValues
  induction l with
  | nil =>
    rcases ht with rfl | ⟨b, s, rfl, hb⟩
    · rfl
    · simp [hb]
  | cons c l ih =>
    have hc := hl c List.mem_cons_self
    obtain ⟨hvalues, hrest⟩ := Prod.mk.inj (ih fun c hc => hl c (List.mem_cons_of_mem _ hc))
    rw [octets_digit hc, List.cons_append, List.takeWhile_cons, List.dropWhile_cons,
      isDigit_octet hc, if_pos rfl, if_pos rfl, List.map_cons, hvalues, hrest, digitValue_octet hc,
      List.map_cons]

theorem gather_digitValues {l : List Char} {m : Nat} (h : Nat.ofDigitChars 10 l m < limit64) :
    Literal.gather m (digitValues l) = (Nat.ofDigitChars 10 l m, 0) := by
  induction l generalizing m with
  | nil => rfl
  | cons c l ih =>
    rw [Nat.ofDigitChars_cons] at h ⊢
    have hle := le_ofDigitChars l (10 * m + (c.toNat - '0'.toNat))
    have hstep : m * 10 + (c.toNat - '0'.toNat) = 10 * m + (c.toNat - '0'.toNat) := by omega
    show Literal.gather m ((c.toNat - '0'.toNat) :: digitValues l) = _
    rw [Literal.gather, hstep, if_pos (Nat.lt_of_le_of_lt hle h), ih h]

/-- The digits of the text of a number without its sign, part by part. -/
structure Spelling where
  whole : List Char
  fraction : Option (List Char)
  /-- The sign and digits of the exponent. -/
  exponent : Option (Bool × List Char)

namespace Spelling

def fractionChars : Option (List Char) → List Char
  | none => []
  | some l => '.' :: l

def exponentChars : Option (Bool × List Char) → List Char
  | none => []
  | some (negative, l) => 'e' :: (if negative then '-' else '+') :: l

def chars (p : Spelling) : List Char :=
  p.whole ++ (fractionChars p.fraction ++ exponentChars p.exponent)

def literal (p : Spelling) : Literal :=
  ⟨digitValues p.whole, p.fraction.map digitValues, p.exponent.map fun e => (e.1, digitValues e.2)⟩

/-- No part is empty or holds anything but digits, and zeros stand before no other digit. -/
structure Valid (p : Spelling) : Prop where
  whole : ∀ c ∈ p.whole, c.isDigit = true
  leading : p.whole = ['0'] ∨ ∃ c l, p.whole = c :: l ∧ c ≠ '0'
  fraction : ∀ l ∈ p.fraction, l ≠ [] ∧ ∀ c ∈ l, c.isDigit = true
  exponent : ∀ e ∈ p.exponent, e.2 ≠ [] ∧ ∀ c ∈ e.2, c.isDigit = true

theorem readWhole_octets {l : List Char} (hl : ∀ c ∈ l, c.isDigit = true)
    (hleading : l = ['0'] ∨ ∃ c r, l = c :: r ∧ c ≠ '0') {t : Octets} (ht : NoDigit t) :
    Literal.readWhole (octets l ++ t) = .ok (digitValues l, t) := by
  rcases hleading with rfl | ⟨c, r, rfl, hc⟩
  · rcases ht with rfl | ⟨b, s, rfl, hb⟩
    · rfl
    · show Literal.readWhole (0x30 :: b :: s) = _
      rw [Literal.readWhole, if_pos rfl]
      simp only [hb, Bool.false_eq_true, if_false]
      rfl
  · have hspan := spanDigits_octets hl ht
    have hdigit := hl c List.mem_cons_self
    have hne : UInt8.ofNat c.toNat ≠ 0x30 := by
      intro heq
      have hbounds := toNat_of_isDigit hdigit
      have hnat := congrArg UInt8.toNat heq
      rw [toNat_ofNat (by omega)] at hnat
      exact hc (Char.toNat_inj.mp hnat)
    rw [octets_digit hdigit, List.cons_append] at hspan ⊢
    simp only [Literal.readWhole, if_neg hne, isDigit_octet hdigit, if_true, hspan]

theorem readDigits_octets {l : List Char} (h : l ≠ [] ∧ ∀ c ∈ l, c.isDigit = true) {t : Octets}
    (ht : NoDigit t) : Literal.readDigits (octets l ++ t) = .ok (digitValues l, t) := by
  obtain ⟨hne, hl⟩ := h
  obtain ⟨c, r, rfl⟩ := List.exists_cons_of_ne_nil hne
  have hspan := spanDigits_octets hl ht
  have hdigit := hl c List.mem_cons_self
  rw [octets_digit hdigit, List.cons_append] at hspan ⊢
  rw [Literal.readDigits, isDigit_octet hdigit, if_pos rfl, hspan]

theorem readFraction_octets {f : Option (List Char)}
    (h : ∀ l ∈ f, l ≠ [] ∧ ∀ c ∈ l, c.isDigit = true) {t : Octets} (ht : NoDigit t)
    (hpoint : ∀ u, t ≠ 0x2E :: u) :
    Literal.readFraction (octets (fractionChars f) ++ t) = .ok (f.map digitValues, t) := by
  cases f with
  | none =>
    show Literal.readFraction t = _
    rw [Literal.readFraction]
    · rfl
    · exact hpoint
  | some l =>
    have hdigits := readDigits_octets (h l rfl) ht
    show Literal.readFraction (0x2E :: (octets l ++ t)) = _
    rw [Literal.readFraction, hdigits]
    rfl

theorem readExponent_octets {e : Option (Bool × List Char)}
    (h : ∀ p ∈ e, p.2 ≠ [] ∧ ∀ c ∈ p.2, c.isDigit = true) {t : Octets} (ht : Ends t) :
    Literal.readExponent (octets (exponentChars e) ++ t) =
      .ok (e.map fun p => (p.1, digitValues p.2), t) := by
  cases e with
  | none =>
    show Literal.readExponent t = _
    rcases ht.cases with rfl | ⟨b, s, rfl, -, -, hmark⟩
    · rfl
    · rw [Literal.readExponent, hmark]
      rfl
  | some p =>
    obtain ⟨negative, l⟩ := p
    have hdigits := readDigits_octets (h _ rfl) ht.noDigit
    cases negative with
    | false =>
      show Literal.readExponent (0x65 :: 0x2B :: (octets l ++ t)) = _
      rw [Literal.readExponent, if_pos (by decide)]
      simp only [Literal.readSign, hdigits, bind, Except.bind]
      rfl
    | true =>
      show Literal.readExponent (0x65 :: 0x2D :: (octets l ++ t)) = _
      rw [Literal.readExponent, if_pos (by decide)]
      simp only [Literal.readSign, hdigits, bind, Except.bind]
      rfl

/-- After the fraction comes neither a digit nor a point. -/
theorem exponentChars_cases (e : Option (Bool × List Char)) {t : Octets} (ht : Ends t) :
    octets (exponentChars e) ++ t = [] ∨ ∃ b u, octets (exponentChars e) ++ t = b :: u ∧
      isDigit b = false ∧ b ≠ 0x2E := by
  cases e with
  | none =>
    rcases ht.cases with rfl | ⟨b, s, rfl, hb, hpoint, -⟩
    · exact Or.inl rfl
    · exact Or.inr ⟨b, s, rfl, hb, hpoint⟩
  | some p => exact Or.inr ⟨0x65, _, rfl, by decide, by decide⟩

/-- The text of a number is read, part by part, up to what comes after it. -/
theorem Valid.read {p : Spelling} (h : p.Valid) {t : Octets} (ht : Ends t) :
    Literal.read (octets p.chars ++ t) = .ok (p.literal, t) := by
  have htext : octets p.chars ++ t = octets p.whole ++
      (octets (fractionChars p.fraction) ++ (octets (exponentChars p.exponent) ++ t)) := by
    rw [chars, octets_append, octets_append, List.append_assoc, List.append_assoc]
  have hexponent := readExponent_octets h.exponent ht
  have hafter := exponentChars_cases p.exponent ht
  rw [htext]
  generalize octets (exponentChars p.exponent) ++ t = after at hexponent hafter ⊢
  have hpoint : ∀ u, after ≠ 0x2E :: u := by
    rintro u rfl
    rcases hafter with hnil | ⟨b, v, hv, -, hb⟩
    · cases hnil
    · exact hb (List.cons.inj hv).1.symm
  have hdigit : NoDigit after := by
    rcases hafter with rfl | ⟨b, u, rfl, hb, -⟩
    · exact Or.inl rfl
    · exact noDigit_cons hb u
  have hfraction := readFraction_octets h.fraction hdigit hpoint
  have hdigit' : NoDigit (octets (fractionChars p.fraction) ++ after) := by
    cases p.fraction with
    | none => exact hdigit
    | some l => exact noDigit_cons (b := 0x2E) (by decide) _
  have hwhole := readWhole_octets h.whole h.leading hdigit'
  unfold Literal.read
  simp only [hwhole, hfraction, hexponent, bind, Except.bind]
  rfl

end Spelling

private theorem literal_decimal (n : Nat) {t : Octets} (ht : Ends t) :
    Literal.read (octets (decimal n) ++ t) = .ok (⟨digitValues (decimal n), none, none⟩, t) := by
  have hvalid : Spelling.Valid ⟨decimal n, none, none⟩ := by
    refine ⟨fun c hc => isDigit_of_mem_decimal hc, ?_, ?_, ?_⟩
    · exact (decimal_cases n).imp_left And.right
    · rintro l ⟨⟩
    · rintro e ⟨⟩
  have hread := hvalid.read ht
  have hchars : Spelling.chars ⟨decimal n, none, none⟩ = decimal n := List.append_nil _
  rwa [hchars] at hread

/-- A numeral after its sign is read back, unless it is zero with a minus sign. -/
theorem readNumber_decimal {negative : Bool} {n : Nat}
    (h : n < limit64) (hneg : negative = true → 0 < n ∧ n ≤ limit63) {t : Octets} (ht : Ends t) :
    readNumber negative (octets (decimal n) ++ t) =
      .ok (.integer (if negative then -n else n), t) := by
  have hgather : Literal.gather 0 (digitValues (decimal n)) = (n, 0) := by
    rw [gather_digitValues, ofDigitChars_decimal]
    rwa [ofDigitChars_decimal]
  have hrange : negative = false ∨ (0 < n ∧ n ≤ limit63) := by
    cases negative with
    | false => exact Or.inl rfl
    | true => exact Or.inr (hneg rfl)
  have hnumber : Literal.number? negative ⟨digitValues (decimal n), none, none⟩ =
      some (.integer (if negative then -n else n)) := by
    unfold Literal.number?
    simp only [hgather, hrange, and_self, if_true]
  unfold readNumber
  simp only [literal_decimal n ht, hnumber, bind, Except.bind]

end DeviceLink.Json
