import DeviceLink.Proofs.Format
import DeviceLink.Proofs.Text.Space

/-! The kinds of values: which texts are read as truth values and as numbers, how they are best
represented, and which are locations. -/
namespace DeviceLink

open Text

namespace Double

section Decimals

variable {s : List Char} {n : Nat}

theorem isDigits_of_spells (h : Spells 10 DecimalDigit s n) : IsDigits s := by
  obtain ⟨hne, hall, -⟩ := digits?_eq_some.mp (digits?_iff_spells.mpr h)
  exact ⟨hne, hall⟩

/-- Whole numbers are decimals without a point and without an exponent. -/
theorem isDecimal_of_spellsInt {i : Int} (h : SpellsInt s i) : IsDecimal s := by
  cases h with
  | digits hs => exact ⟨[], s, [], Or.inl rfl, .whole (isDigits_of_spells hs), .none, by simp⟩
  | @negated t _ ht =>
    exact ⟨['-'], t, [], Or.inr (Or.inl rfl), .whole (isDigits_of_spells ht), .none, by simp⟩

end Decimals

end Double

namespace Value

section Spellings

variable {v : String} {n : Nat} {i : Int}

theorem uint?_iff : uint? v = some n ↔ Spells 10 DecimalDigit v.toList n ∧ n < limit64 := by
  rw [uint?, below?, Option.filter_eq_some_iff, digits?_iff_spells, decide_eq_true_eq]

theorem hex?_iff : hex? v = some n ↔ Spells 16 HexDigit v.toList n ∧ n < limit64 := by
  rw [hex?, below?, Option.filter_eq_some_iff, hexDigits?_iff_spells, decide_eq_true_eq]

theorem bool?_iff {b : Bool} : bool? v = some b ↔ v = toString b := by
  unfold bool?
  cases b with
  | true =>
    show _ ↔ v = "true"
    split_ifs <;> simp_all
  | false =>
    show _ ↔ v = "false"
    split_ifs <;> simp_all

theorem cast_filter_eq_some {p : Nat → Bool} {o : Option Nat} :
    (do let a ← o.filter p; pure (a : Int)) = some i ↔
      ∃ k : Nat, o = some k ∧ p k = true ∧ (k : Int) = i := by
  show (o.filter p).bind (fun a => some (a : Int)) = some i ↔ _
  simp only [Option.bind_eq_some_iff, Option.filter_eq_some_iff, Option.some.injEq, and_assoc]

/-- Behind a minus sign the digits of the limit itself are still read. -/
theorem int?_of_minus {s : List Char} (h : v.toList = '-' :: s) : int? v = some i ↔
    ∃ k : Nat, Spells 10 DecimalDigit s k ∧ k ≤ limit63 ∧ -(k : Int) = i := by
  unfold int?
  split
  · rename_i t ht
    obtain rfl := (List.cons.inj (h.symm.trans ht)).2
    rw [Option.map_eq_some_iff]
    simp only [cast_filter_eq_some, digits?_iff_spells, decide_eq_true_eq]
    constructor
    · intro h
      obtain ⟨_, ⟨k, hk, hle, rfl⟩, hi⟩ := h
      exact ⟨k, hk, hle, hi⟩
    · intro h
      obtain ⟨k, hk, hle, hi⟩ := h
      exact ⟨k, ⟨k, hk, hle, rfl⟩, hi⟩
  · rename_i hdigits
    exact absurd h (hdigits s)

theorem int?_of_digits (h : ∀ s, v.toList ≠ '-' :: s) : int? v = some i ↔
    ∃ k : Nat, Spells 10 DecimalDigit v.toList k ∧ k < limit63 ∧ (k : Int) = i := by
  unfold int?
  split
  · rename_i s hs
    exact absurd hs (h s)
  · rw [Option.map_eq_some_iff]
    simp only [cast_filter_eq_some, digits?_iff_spells, decide_eq_true_eq, exists_eq_right]

/-- A signed number is read in exactly its spellings, from minus the limit to below it. -/
theorem int?_iff : int? v = some i ↔
    SpellsInt v.toList i ∧ -limit63 ≤ i ∧ i < limit63 := by
  by_cases hminus : ∃ s, v.toList = '-' :: s
  · obtain ⟨s, hs⟩ := hminus
    rw [int?_of_minus hs, hs]
    constructor
    · intro h
      obtain ⟨k, hk, hle, rfl⟩ := h
      have hpositive : 0 < limit63 := by decide
      exact ⟨.negated hk, by omega, by omega⟩
    · intro h
      obtain ⟨hspells, hlo, hhi⟩ := h
      cases hspells with
      | digits hk => exact absurd hk (not_spells_cons (by decide))
      | @negated _ k hk => exact ⟨k, hk, by omega, rfl⟩
  · have hdigits : ∀ s, v.toList ≠ '-' :: s := fun s hs => hminus ⟨s, hs⟩
    rw [int?_of_digits hdigits]
    constructor
    · intro h
      obtain ⟨k, hk, hlt, rfl⟩ := h
      exact ⟨.digits hk, by omega, by omega⟩
    · intro h
      obtain ⟨hspells, hlo, hhi⟩ := h
      generalize v.toList = t at *
      cases hspells with
      | @digits _ k hk => exact ⟨k, hk, by omega, rfl⟩
      | @negated s _ _ => exact absurd rfl (hdigits s)

theorem uint?_lt (h : uint? v = some n) : n < limit64 := (uint?_iff.mp h).2

theorem int?_bounds (h : int? v = some i) : -limit63 ≤ i ∧ i < limit63 := (int?_iff.mp h).2

theorem uint?_decimal {n : Nat} (h : n < limit64) :
    uint? (String.ofList (decimal n)) = some n := by
  rw [uint?_iff, String.toList_ofList]
  exact ⟨spells_decimal n, h⟩

theorem int?_decimalInt {n : Int} (hlo : -limit63 ≤ n) (hhi : n < limit63) :
    int? (String.ofList (decimalInt n)) = some n := by
  rw [int?_iff, String.toList_ofList]
  exact ⟨spellsInt_decimalInt n, hlo, hhi⟩

end Spellings

def IsTruth (v : String) : Prop := v = "true" ∨ v = "false"

def IsUnsigned (s : List Char) : Prop := ∃ n, Spells 10 DecimalDigit s n ∧ n < 2 ^ 64

/-- A minus sign with the digits of a number whose negative has 64 bits. -/
def IsNegated (s : List Char) : Prop :=
  ∃ digits n, s = '-' :: digits ∧ Spells 10 DecimalDigit digits n ∧ n ≤ 2 ^ 63

section Kinds

variable {v : String}

theorem isSome_bool?_iff : (bool? v).isSome = true ↔ IsTruth v := by
  rw [Option.isSome_iff_exists, Bool.exists_bool, bool?_iff, bool?_iff]
  exact or_comm

theorem isSome_uint?_iff : (uint? v).isSome = true ↔ IsUnsigned v.toList := by
  rw [Option.isSome_iff_exists]
  exact exists_congr fun n => uint?_iff

/-- Digits alone are read as a signed number up to half of the limit. -/
theorem isSome_int?_iff : (int? v).isSome = true ↔
    (∃ n, Spells 10 DecimalDigit v.toList n ∧ n < 2 ^ 63) ∨ IsNegated v.toList := by
  rw [Option.isSome_iff_exists]
  by_cases hminus : ∃ s, v.toList = '-' :: s
  · obtain ⟨s, hs⟩ := hminus
    have hsign : ∀ n, ¬ Spells 10 DecimalDigit ('-' :: s) n := fun n => not_spells_cons (by decide)
    simp only [int?_of_minus hs, IsNegated, hs, hsign, false_and, exists_false, false_or,
      List.cons.injEq, true_and]
    constructor
    · intro h
      obtain ⟨_, n, hn, hle, -⟩ := h
      exact ⟨s, n, rfl, hn, hle⟩
    · intro h
      obtain ⟨_, n, rfl, hn, hle⟩ := h
      exact ⟨_, n, hn, hle, rfl⟩
  · have hdigits : ∀ s, v.toList ≠ '-' :: s := fun s hs => hminus ⟨s, hs⟩
    have hnegated : ¬ IsNegated v.toList := fun ⟨s, _, hs, _⟩ => hminus ⟨s, hs⟩
    simp only [int?_of_digits hdigits, hnegated, or_false]
    constructor
    · intro h
      obtain ⟨_, n, hn, hlt, -⟩ := h
      exact ⟨n, hn, hlt⟩
    · intro h
      obtain ⟨n, hn, hlt⟩ := h
      exact ⟨_, n, hn, hlt, rfl⟩

theorem isSome_double?_iff : (double? v).isSome = true ↔ Double.IsDecimal v.toList :=
  Double.isSome_read?_iff

theorem isDecimal_of_isUnsigned (h : IsUnsigned v.toList) : Double.IsDecimal v.toList := by
  obtain ⟨n, hn, -⟩ := h
  exact Double.isDecimal_of_spellsInt (.digits hn)

theorem isDecimal_of_isNegated (h : IsNegated v.toList) : Double.IsDecimal v.toList := by
  obtain ⟨s, n, hs, hn, -⟩ := h
  rw [hs]
  exact Double.isDecimal_of_spellsInt (.negated hn)

theorem not_isDecimal_of_isTruth (h : IsTruth v) : ¬ Double.IsDecimal v.toList := by
  intro hdecimal
  rcases h with rfl | rfl
  · exact absurd (hdecimal.mem (c := 't') (by decide)) (by decide)
  · exact absurd (hdecimal.mem (c := 'f') (by decide)) (by decide)

theorem not_isNegated_of_isUnsigned (h : IsUnsigned v.toList) : ¬ IsNegated v.toList := by
  intro hnegated
  obtain ⟨n, hn, -⟩ := h
  obtain ⟨s, _, hs, -⟩ := hnegated
  rw [hs] at hn
  exact not_spells_cons (by decide) hn

theorem isUnsigned_of_small (h : ∃ n, Spells 10 DecimalDigit v.toList n ∧ n < 2 ^ 63) :
    IsUnsigned v.toList := by
  obtain ⟨n, hn, hlt⟩ := h
  exact ⟨n, hn, Nat.lt_trans hlt (by decide)⟩

/-- The five kinds by what a text spells; each excludes the others. -/
theorem kind_iff :
    (kind v = .boolean ↔ IsTruth v) ∧
    (kind v = .uint ↔ IsUnsigned v.toList) ∧
    (kind v = .int ↔ IsNegated v.toList) ∧
    (kind v = .double ↔
      Double.IsDecimal v.toList ∧ ¬ IsUnsigned v.toList ∧ ¬ IsNegated v.toList) ∧
    (kind v = .string ↔ ¬ IsTruth v ∧ ¬ Double.IsDecimal v.toList) := by
  have htruth := not_isDecimal_of_isTruth (v := v)
  have hunsigned := isDecimal_of_isUnsigned (v := v)
  have hnegated := isDecimal_of_isNegated (v := v)
  have hsign := not_isNegated_of_isUnsigned (v := v)
  have hboolean := isSome_bool?_iff (v := v)
  have huint := isSome_uint?_iff (v := v)
  have hint := isSome_int?_iff (v := v)
  have hdouble := isSome_double?_iff (v := v)
  unfold kind
  split_ifs with h1 h2 h3 h4
  · rw [hboolean] at h1
    have hd := htruth h1
    simp [h1, hd, mt hunsigned hd, mt hnegated hd]
  · rw [hboolean] at h1
    rw [huint] at h2
    simp [h1, h2, hsign h2, hunsigned h2]
  · rw [hboolean] at h1
    rw [huint] at h2
    rw [hint] at h3
    have hn := h3.resolve_left (mt isUnsigned_of_small h2)
    simp [h1, h2, hn, hnegated hn]
  · rw [hboolean] at h1
    rw [huint] at h2
    rw [hint, not_or] at h3
    rw [hdouble] at h4
    simp [h1, h2, h3.2, h4]
  · rw [hboolean] at h1
    rw [huint] at h2
    rw [hint, not_or] at h3
    rw [hdouble] at h4
    simp [h1, h2, h3.2, h4]

end Kinds

section Locations

variable {v : String}

theorem span_comma {before : List Char} (h : ',' ∉ before) (after : List Char) :
    (before ++ ',' :: after).takeWhile (· != ',') = before ∧
      (before ++ ',' :: after).dropWhile (· != ',') = ',' :: after := by
  have hall : ∀ c ∈ before, (c != ',') = true := by
    intro c hc
    rw [bne_iff_ne]
    rintro rfl
    exact h hc
  rw [List.takeWhile_append_of_pos hall, List.dropWhile_append_of_pos hall]
  simp

private theorem split_comma {s after : List Char} {c : Char}
    (h : s.dropWhile (· != ',') = c :: after) :
    s = s.takeWhile (· != ',') ++ ',' :: after ∧ ',' ∉ s.takeWhile (· != ',') := by
  have hc : c = ',' := by
    have hhead := List.head?_dropWhile_not (· != ',') s
    rw [h] at hhead
    simpa using hhead
  subst hc
  constructor
  · rw [← h, List.takeWhile_append_dropWhile]
  · intro hmem
    simpa using List.mem_takeWhile_imp hmem

/-- Exactly the texts of two decimals with a comma between them are locations. -/
theorem isSome_location?_iff : (Location.ofText? v).isSome = true ↔
    ∃ before after latitude longitude, v.toList = before ++ ',' :: after ∧ ',' ∉ before ∧
      Trimmed before latitude ∧ Trimmed after longitude ∧
      Double.IsDecimal latitude ∧ Double.IsDecimal longitude := by
  simp only [trimmed_iff, ← Double.isSome_read?_iff]
  unfold Location.ofText?
  dsimp only
  constructor
  · intro h
    cases hdrop : v.toList.dropWhile (· != ',') with
    | nil =>
      rw [hdrop] at h
      cases h
    | cons c after =>
      rw [hdrop] at h
      obtain ⟨hsplit, hbefore⟩ := split_comma hdrop
      obtain ⟨l, hl⟩ := Option.isSome_iff_exists.mp h
      obtain ⟨x, hx, hl⟩ := Option.bind_eq_some_iff.mp hl
      obtain ⟨y, hy, -⟩ := Option.bind_eq_some_iff.mp hl
      exact ⟨_, after, _, _, hsplit, hbefore, rfl, rfl, Option.isSome_of_eq_some hx,
        Option.isSome_of_eq_some hy⟩
  · intro h
    obtain ⟨before, after, _, _, hsplit, hbefore, rfl, rfl, hlatitude, hlongitude⟩ := h
    obtain ⟨htake, hdrop⟩ := span_comma hbefore after
    obtain ⟨x, hx⟩ := Option.isSome_iff_exists.mp hlatitude
    obtain ⟨y, hy⟩ := Option.isSome_iff_exists.mp hlongitude
    rw [hsplit, htake, hdrop]
    dsimp only
    rw [hx, hy]
    rfl

end Locations

/-- Values are kinds of text by these grammars, and formats, whatever characters they take for
digits, see them in the same way. -/
theorem kind_by_grammar (d : Format.DigitClass) (v : String) :
    (((Format.double d).accepts v.toList = true ↔ Double.IsDecimal v.toList) ∧
      ((double? v).isSome = true ↔ Double.IsDecimal v.toList)) ∧
    (((kind v = .boolean ↔ IsTruth v) ∧
      (kind v = .uint ↔ IsUnsigned v.toList) ∧
      (kind v = .int ↔ IsNegated v.toList) ∧
      (kind v = .double ↔
        Double.IsDecimal v.toList ∧ ¬ IsUnsigned v.toList ∧ ¬ IsNegated v.toList) ∧
      (kind v = .string ↔ ¬ IsTruth v ∧ ¬ Double.IsDecimal v.toList)) ∧
      Format.kind d v = kind v) ∧
    ((Format.uint d).accepts v.toList = true ∨ (Format.int d).accepts v.toList = true →
      (Format.double d).accepts v.toList = true) ∧
    ((Location.ofText? v).isSome = true ↔
      ∃ before after latitude longitude, v.toList = before ++ ',' :: after ∧ ',' ∉ before ∧
        Trimmed before latitude ∧ Trimmed after longitude ∧
        Double.IsDecimal latitude ∧ Double.IsDecimal longitude) ∧
    Format.location? d v = Location.ofText? v := by
  have hdouble : (Format.double d).accepts v.toList = true ↔ Double.IsDecimal v.toList := by
    rw [(Format.double_eq d v.toList).1, Double.isSome_read?_iff]
  have hwhole : (Format.uint d).accepts v.toList = true ∨ (Format.int d).accepts v.toList = true →
      (Format.double d).accepts v.toList = true := by
    intro h
    rw [(Format.uint_eq d v).1, (Format.int_eq d v).1] at h
    rw [hdouble]
    rcases h with h | h
    · exact isDecimal_of_isUnsigned (isSome_uint?_iff.mp h)
    · obtain ⟨i, hi⟩ := Option.isSome_iff_exists.mp h
      exact Double.isDecimal_of_spellsInt (int?_iff.mp hi).1
  exact ⟨⟨hdouble, isSome_double?_iff⟩, ⟨kind_iff, Format.kind_eq d v⟩, hwhole,
    isSome_location?_iff, Format.location?_eq d v⟩

theorem kind_by_grammar_least : (Format.int .arabic).accepts "-9223372036854775808".toList = true ∧
    (Format.double .arabic).accepts "-9223372036854775808".toList = true := by
  have hint : (Format.int .arabic).accepts "-9223372036854775808".toList = true := by
    rw [(Format.int_eq .arabic _).1]
    decide
  exact ⟨hint, (kind_by_grammar .arabic "-9223372036854775808").2.2.1 (Or.inr hint)⟩

end Value
end DeviceLink
