import DeviceLink.Double.Decimal
import Mathlib.Data.List.TakeWhile

/-! Decimals as texts: the grammar of what is read as a double, and that the reader accepts exactly
the texts of that grammar. -/
namespace DeviceLink.Double

def IsSign (s : List Char) : Prop := s = [] ∨ s = ['-'] ∨ s = ['+']

/-- ASCII digits, at least one. -/
def IsDigits (s : List Char) : Prop := s ≠ [] ∧ ∀ c ∈ s, c.isDigit = true

/-- Digits, perhaps with a point among or behind them, or digits behind a point. -/
inductive IsMantissa : List Char → Prop
  | whole {w : List Char} : IsDigits w → IsMantissa w
  | pointed {w f : List Char} :
    IsDigits w → (∀ c ∈ f, c.isDigit = true) → IsMantissa (w ++ '.' :: f)
  | fraction {f : List Char} : IsDigits f → IsMantissa ('.' :: f)

/-- Nothing, or a letter with digits that may have a sign. -/
inductive IsExponent : List Char → Prop
  | none : IsExponent []
  | marked {e : Char} {sign digits : List Char} :
    e = 'e' ∨ e = 'E' → IsSign sign → IsDigits digits → IsExponent (e :: (sign ++ digits))

/-- A decimal is a mantissa with a sign before it and an exponent behind it, either of which may be
missing. -/
def IsDecimal (s : List Char) : Prop :=
  ∃ sign mantissa exponent, IsSign sign ∧ IsMantissa mantissa ∧ IsExponent exponent ∧
    s = sign ++ mantissa ++ exponent

section Signs

variable {s sign : List Char}

theorem exists_sign (s : List Char) : ∃ sign, IsSign sign ∧ s = sign ++ (signed s).2 := by
  unfold signed
  split
  · exact ⟨['-'], Or.inr (Or.inl rfl), rfl⟩
  · exact ⟨['+'], Or.inr (Or.inr rfl), rfl⟩
  · exact ⟨[], Or.inl rfl, rfl⟩

theorem signed_append (hsign : IsSign sign)
    (hs : ∀ c t, s = c :: t → c ≠ '-' ∧ c ≠ '+') : (signed (sign ++ s)).2 = s := by
  rcases hsign with rfl | rfl | rfl
  · show (signed s).2 = s
    unfold signed
    split
    · exact absurd rfl (hs _ _ rfl).1
    · exact absurd rfl (hs _ _ rfl).2
    · rfl
  · rfl
  · rfl

end Signs

section Digits

variable {w r : List Char}

theorem isDigits_takeWhile (s : List Char) :
    ∀ c ∈ s.takeWhile Char.isDigit, c.isDigit = true :=
  List.all_eq_true.mp List.all_takeWhile

theorem span_digits (hw : ∀ c ∈ w, c.isDigit = true)
    (hr : ∀ c t, r = c :: t → c.isDigit = false) :
    (w ++ r).takeWhile Char.isDigit = w ∧ (w ++ r).dropWhile Char.isDigit = r := by
  have htake : r.takeWhile Char.isDigit = [] := by
    cases r with
    | nil => rfl
    | cons c t => simp [hr c t rfl]
  have hdrop : r.dropWhile Char.isDigit = r := by
    cases r with
    | nil => rfl
    | cons c t => simp [hr c t rfl]
  rw [List.takeWhile_append_of_pos hw, List.dropWhile_append_of_pos hw, htake, hdrop]
  simp

theorem ne_sign_of_isDigit {c : Char} (h : c.isDigit = true) : c ≠ '-' ∧ c ≠ '+' := by
  constructor
  · rintro rfl
    exact absurd h (by decide)
  · rintro rfl
    exact absurd h (by decide)

theorem IsDigits.head (h : IsDigits w) : ∃ c t, w = c :: t ∧ c.isDigit = true := by
  obtain ⟨hne, hall⟩ := h
  obtain ⟨c, t, rfl⟩ := List.exists_cons_of_ne_nil hne
  exact ⟨c, t, rfl, hall c List.mem_cons_self⟩

end Digits

section Exponents

variable {s : List Char}

theorem isExponent_of_eq_some {n : Int} (h : exponent? s = some n) : IsExponent s := by
  cases s with
  | nil => exact .none
  | cons c s =>
    obtain ⟨sign, hsign, hs⟩ := exists_sign s
    obtain ⟨⟨hc, hne, hall⟩, -⟩ := Option.ite_none_right_eq_some.mp h
    rw [hs]
    exact .marked hc hsign ⟨hne, List.all_eq_true.mp hall⟩

theorem isSome_exponent? (h : IsExponent s) : (exponent? s).isSome = true := by
  cases h with
  | none => rfl
  | @marked e sign digits he hsign hdigits =>
    obtain ⟨hne, hall⟩ := hdigits
    have hstart : ∀ c t, digits = c :: t → c ≠ '-' ∧ c ≠ '+' := by
      intro c t ht
      exact ne_sign_of_isDigit (hall c (ht ▸ List.mem_cons_self))
    have hsigned : (signed (sign ++ digits)).2 = digits := signed_append hsign hstart
    unfold exponent?
    dsimp only
    rw [hsigned, if_pos ⟨he, hne, List.all_eq_true.mpr hall⟩]
    rfl

theorem IsExponent.head (h : IsExponent s) :
    ∀ c t, s = c :: t → c.isDigit = false ∧ c ≠ '.' := by
  intro c t hs
  cases h with
  | none => cases hs
  | marked he =>
    obtain rfl := (List.cons.inj hs).1
    rcases he with rfl | rfl
    · decide
    · decide

end Exponents

section Mantissas

theorem IsMantissa.parts {m : List Char} (hm : IsMantissa m) (r : List Char) :
    ∃ w t, m ++ r = w ++ t ∧ (∀ c ∈ w, c.isDigit = true) ∧
      ((t = r ∧ w ≠ []) ∨ ∃ f, t = '.' :: (f ++ r) ∧ (∀ c ∈ f, c.isDigit = true) ∧
        (w ≠ [] ∨ f ≠ [])) := by
  cases hm with
  | whole hw => exact ⟨m, r, rfl, hw.2, Or.inl ⟨rfl, hw.1⟩⟩
  | @pointed w f hw hf =>
    refine ⟨w, '.' :: (f ++ r), by simp, hw.2, Or.inr ⟨f, rfl, hf, Or.inl hw.1⟩⟩
  | @fraction f hf =>
    exact ⟨[], '.' :: (f ++ r), rfl, by simp, Or.inr ⟨f, rfl, hf.2, Or.inr hf.1⟩⟩

theorem IsMantissa.head {m : List Char} (hm : IsMantissa m) (r : List Char) :
    ∀ c t, m ++ r = c :: t → c ≠ '-' ∧ c ≠ '+' := by
  have hdigits : ∀ {w : List Char} (r : List Char), IsDigits w →
      ∀ c t, w ++ r = c :: t → c ≠ '-' ∧ c ≠ '+' := by
    intro w r hw c t ht
    obtain ⟨d, w', rfl, hd⟩ := hw.head
    obtain rfl := (List.cons.inj ht).1
    exact ne_sign_of_isDigit hd
  intro c t ht
  cases hm with
  | whole hw => exact hdigits r hw c t ht
  | @pointed w f hw hf =>
    rw [List.append_assoc] at ht
    exact hdigits _ hw c t ht
  | fraction hf =>
    obtain rfl := (List.cons.inj ht).1
    decide

end Mantissas

section Decimals

variable {s : List Char}

theorem isDecimal_of_eq_some {n : Numeral} (h : numeral? s = some n) : IsDecimal s := by
  obtain ⟨sign, hsign, hs⟩ := exists_sign s
  have hwhole := isDigits_takeWhile (signed s).2
  have hsplit := List.takeWhile_append_dropWhile (p := Char.isDigit) (l := (signed s).2)
  unfold numeral? at h
  dsimp only at h
  split at h
  · rename_i t ht
    obtain ⟨hempty, h⟩ := Option.ite_none_left_eq_some.mp h
    obtain ⟨e, he, -⟩ := Option.map_eq_some_iff.mp h
    have hfraction := isDigits_takeWhile t
    have hrest := List.takeWhile_append_dropWhile (p := Char.isDigit) (l := t)
    refine ⟨sign, (signed s).2.takeWhile Char.isDigit ++ '.' :: t.takeWhile Char.isDigit,
      t.dropWhile Char.isDigit, hsign, ?_, isExponent_of_eq_some he, ?_⟩
    · by_cases hw : (signed s).2.takeWhile Char.isDigit = []
      · rw [hw]
        exact .fraction ⟨fun hf => hempty ⟨hw, hf⟩, hfraction⟩
      · exact .pointed ⟨hw, hwhole⟩ hfraction
    · rw [List.append_assoc, List.append_assoc, List.cons_append, hrest, ← ht, hsplit]
      exact hs
  · obtain ⟨hempty, h⟩ := Option.ite_none_left_eq_some.mp h
    obtain ⟨e, he, -⟩ := Option.map_eq_some_iff.mp h
    refine ⟨sign, (signed s).2.takeWhile Char.isDigit, (signed s).2.dropWhile Char.isDigit, hsign,
      .whole ⟨fun hw => hempty ⟨hw, rfl⟩, hwhole⟩, isExponent_of_eq_some he, ?_⟩
    rw [List.append_assoc, hsplit]
    exact hs

private theorem isSome_numeral? (h : IsDecimal s) : (numeral? s).isSome = true := by
  obtain ⟨sign, m, r, hsign, hm, hr, rfl⟩ := h
  have hsigned : (signed (sign ++ m ++ r)).2 = m ++ r := by
    rw [List.append_assoc]
    exact signed_append hsign (hm.head r)
  have hexponent := isSome_exponent? hr
  have hdigitless : ∀ c t, r = c :: t → c.isDigit = false := fun c t ht => (hr.head c t ht).1
  unfold numeral?
  dsimp only
  rw [hsigned]
  obtain ⟨w, t, hparts, hw, hcases⟩ := hm.parts r
  rw [hparts]
  rcases hcases with ⟨rfl, hne⟩ | ⟨f, rfl, hf, hne⟩
  · obtain ⟨htake, hdrop⟩ := span_digits hw hdigitless
    rw [htake, hdrop]
    split
    · rename_i t'
      exact absurd rfl (hr.head _ _ rfl).2
    · simp [hne, hexponent]
  · have hpoint : ∀ c t, '.' :: (f ++ r) = c :: t → c.isDigit = false := by
      intro c t ht
      obtain rfl := (List.cons.inj ht).1
      decide
    obtain ⟨htake, hdrop⟩ := span_digits hw hpoint
    obtain ⟨htake', hdrop'⟩ := span_digits hf hdigitless
    rw [htake, hdrop]
    simp only [htake', hdrop']
    have hempty : ¬ (w = [] ∧ f = []) := by
      intro h
      exact hne.elim (fun hw => hw h.1) fun hf => hf h.2
    rw [if_neg hempty, Option.isSome_map]
    exact hexponent

theorem isSome_read?_iff : (read? s).isSome = true ↔ IsDecimal s := by
  rw [read?, Option.isSome_map]
  constructor
  · intro h
    obtain ⟨n, hn⟩ := Option.isSome_iff_exists.mp h
    exact isDecimal_of_eq_some hn
  · exact isSome_numeral?

end Decimals

section Characters

variable {s : List Char} {c : Char}

def IsMark (c : Char) : Prop := c ∈ ['-', '+', '.', 'e', 'E']

instance (c : Char) : Decidable (IsMark c) := inferInstanceAs (Decidable (c ∈ _))

theorem IsSign.mem (h : IsSign s) (hc : c ∈ s) : IsMark c := by
  rcases h with rfl | rfl | rfl
  · cases hc
  · rw [List.mem_singleton.mp hc]
    decide
  · rw [List.mem_singleton.mp hc]
    decide

theorem IsMantissa.mem (h : IsMantissa s) (hc : c ∈ s) : c.isDigit = true ∨ IsMark c := by
  have hpoint : ∀ {f : List Char}, (∀ c ∈ f, c.isDigit = true) → c ∈ '.' :: f →
      c.isDigit = true ∨ IsMark c := by
    intro f hf hc
    rcases List.mem_cons.mp hc with rfl | hc
    · exact Or.inr (by decide)
    · exact Or.inl (hf c hc)
  cases h with
  | whole hw => exact Or.inl (hw.2 c hc)
  | pointed hw hf =>
    rcases List.mem_append.mp hc with hc | hc
    · exact Or.inl (hw.2 c hc)
    · exact hpoint hf hc
  | fraction hf => exact hpoint hf.2 hc

theorem IsExponent.mem (h : IsExponent s) (hc : c ∈ s) : c.isDigit = true ∨ IsMark c := by
  cases h with
  | none => cases hc
  | marked hletter hsign hdigits =>
    rcases List.mem_cons.mp hc with rfl | hc
    · rcases hletter with rfl | rfl
      · exact Or.inr (by decide)
      · exact Or.inr (by decide)
    · rcases List.mem_append.mp hc with hc | hc
      · exact Or.inr (hsign.mem hc)
      · exact Or.inl (hdigits.2 c hc)

theorem IsDecimal.mem (h : IsDecimal s) (hc : c ∈ s) : c.isDigit = true ∨ IsMark c := by
  obtain ⟨sign, m, e, hsign, hm, he, rfl⟩ := h
  rcases List.mem_append.mp hc with hc | hc
  · rcases List.mem_append.mp hc with hc | hc
    · exact Or.inr (hsign.mem hc)
    · exact hm.mem hc
  · exact he.mem hc

end Characters

end DeviceLink.Double
