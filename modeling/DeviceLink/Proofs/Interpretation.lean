import DeviceLink.Proofs.Json.Natural
import DeviceLink.Proofs.Value

/-! Interpretations of a value: what a text can be read as, and which of these readings its
canonical spelling and the text of a double keep. -/
namespace DeviceLink

namespace Text

section Digits

variable {l : List Char} {c : Char} {n : Nat}

theorem hexDigits?_eq_none (hc : c ∈ l) (h : isHexDigit c = false) : hexDigits? l = none := by
  apply if_neg
  rintro ⟨-, hall⟩
  rw [List.all_eq_true.mp hall c hc] at h
  cases h

/-- A zero before other digits counts for nothing in base 16 either. -/
theorem hexDigits?_zero_cons (h : l ≠ []) : hexDigits? ('0' :: l) = hexDigits? l := by
  have hzero : 0 * 16 + hexDigitValue '0' = 0 := rfl
  have hdigit : isHexDigit '0' = true := rfl
  unfold hexDigits?
  rw [List.foldl_cons, hzero, List.all_cons, hdigit, Bool.true_and]
  simp [h]

/-- Decimal digits read in base 16 are as many as without their leading zeros. -/
theorem hexDigits?_decimal (h : digits? l = some n) : hexDigits? (decimal n) = hexDigits? l := by
  induction l with
  | nil => cases h
  | cons c l ih =>
    obtain ⟨-, hdigits, hvalue⟩ := digits?_eq_some.mp h
    by_cases hc : c = '0'
    · subst hc
      by_cases hl : l = []
      · subst hl
        rw [← hvalue]
        rfl
      · rw [digits?_zero_cons hl] at h
        rw [ih h, hexDigits?_zero_cons hl]
    · rw [← hvalue, decimal_ofDigitChars hdigits (Or.inr ⟨c, l, rfl, hc⟩)]

end Digits

end Text

namespace Double

/-- The text of a double has a point, a sign after its exponent mark, or letters of no numeral. -/
theorem hexDigits?_text (x : Double) : Text.hexDigits? (x.text .json) = none := by
  cases hfinite : x.isFinite with
  | true =>
    obtain ⟨p, hp, hspells⟩ := Json.exists_spells hfinite
    have hmem : ∃ c ∈ p.chars, Text.isHexDigit c = false := by
      rcases hp.parts with hfraction | hexponent
      · obtain ⟨f, hf⟩ := Option.ne_none_iff_exists'.mp hfraction
        refine ⟨'.', ?_, by decide⟩
        simp [Json.Spelling.chars, hf, Json.Spelling.fractionChars]
      · obtain ⟨⟨negative, l⟩, hl⟩ := Option.ne_none_iff_exists'.mp hexponent
        refine ⟨if negative then '-' else '+', ?_, ?_⟩
        · simp [Json.Spelling.chars, hl, Json.Spelling.exponentChars]
        · cases negative <;> decide
    obtain ⟨c, hc, hhex⟩ := hmem
    refine Text.hexDigits?_eq_none ?_ hhex
    rw [hspells]
    split_ifs
    · exact List.mem_cons_of_mem _ hc
    · exact hc
  | false =>
    unfold text
    rw [hfinite]
    cases x.isInfinite with
    | false => rfl
    | true => cases x.isNegative <;> rfl

end Double

namespace Value

open Text

section Kinds

variable {v : String}

theorem bool?_eq_none (h : kind v ≠ .boolean) : bool? v = none := by
  rw [← Option.not_isSome_iff_eq_none, isSome_bool?_iff, ← kind_iff.1]
  exact h

theorem uint?_eq_none (h : kind v ≠ .uint) : uint? v = none := by
  rw [← Option.not_isSome_iff_eq_none, isSome_uint?_iff, ← kind_iff.2.1]
  exact h

theorem int?_eq_none (huint : kind v ≠ .uint) (hint : kind v ≠ .int) : int? v = none := by
  rw [← Option.not_isSome_iff_eq_none, isSome_int?_iff, ← kind_iff.2.2.1]
  intro h
  rcases h with h | h
  · exact huint (kind_iff.2.1.mpr (isUnsigned_of_small h))
  · exact hint h

theorem canonical_of_kind (huint : kind v ≠ .uint) (hint : kind v ≠ .int) : canonical v = v := by
  unfold canonical
  split
  · exact absurd ‹_› huint
  · exact absurd ‹_› hint
  · rfl

end Kinds

section Locations

variable {v : String}

theorem mem_of_location {l : Location} (h : Location.ofText? v = some l) : ',' ∈ v.toList := by
  obtain ⟨before, after, -, -, hsplit, -⟩ := isSome_location?_iff.mp (Option.isSome_of_eq_some h)
  simp [hsplit]

private theorem kind_of_comma (h : ',' ∈ v.toList) : kind v = .string := by
  have htruth : ¬ IsTruth v := by
    intro htruth
    rcases htruth with rfl | rfl
    · exact absurd h (by decide)
    · exact absurd h (by decide)
  have hdecimal : ¬ Double.IsDecimal v.toList := by
    intro hdecimal
    exact absurd (hdecimal.mem h) (by decide)
  exact kind_iff.2.2.2.2.mpr ⟨htruth, hdecimal⟩

theorem location_eq_none (h : kind v ≠ .string) : Location.ofText? v = none := by
  by_contra hsome
  obtain ⟨l, hl⟩ := Option.ne_none_iff_exists'.mp hsome
  exact h (kind_of_comma (mem_of_location hl))

end Locations

/-- Whatever a value can be read as, hexadecimal numbers apart, another text can be read as too. -/
structure Keeps (v w : String) : Prop where
  bool : ∀ b, bool? v = some b → bool? w = some b
  uint : ∀ n, uint? v = some n → uint? w = some n
  int : ∀ n, int? v = some n → int? w = some n
  location : ∀ l, Location.ofText? v = some l → Location.ofText? w = some l

section Canonical

variable {v : String}

def IsFiniteDouble (v : String) : Prop :=
  kind v = .double ∧ ∃ x, double? v = some x ∧ x.isFinite = true

/-- A finite double is sent as a number, any other one as the text that it is. -/
theorem toJson_of_finite (h : IsFiniteDouble v) : ∃ x, toJson v = .number (.double x) := by
  obtain ⟨hdouble, x, hx, hfinite⟩ := h
  exact ⟨x, toJson_of_double hdouble hx hfinite⟩

theorem toJson_of_not_finite (hdouble : kind v = .double) (h : ¬ IsFiniteDouble v) :
    toJson v = .string v :=
  toJson_of_no_finite hdouble fun x hx hfinite => h ⟨hdouble, x, hx, hfinite⟩

theorem keeps_of_number {w : String} (hboolean : kind v ≠ .boolean) (hstring : kind v ≠ .string)
    (huint : ∀ n, uint? v = some n → uint? w = some n)
    (hint : ∀ n, int? v = some n → int? w = some n) : Keeps v w where
  bool b hb := by cases (bool?_eq_none hboolean).symm.trans hb
  uint := huint
  int := hint
  location l hl := by cases (location_eq_none hstring).symm.trans hl

/-- A double can be read as nothing else but in base 16. -/
theorem keeps_of_double (h : kind v = .double) (w : String) : Keeps v w := by
  have huint : uint? v = none := uint?_eq_none (by simp [h])
  have hint : int? v = none := int?_eq_none (by simp [h]) (by simp [h])
  refine keeps_of_number (by simp [h]) (by simp [h]) ?_ ?_
  · intro n hn
    cases huint.symm.trans hn
  · intro n hn
    cases hint.symm.trans hn

theorem exists_numeral (h : kind v = .uint) : ∃ n, n < limit64 ∧ uint? v = some n ∧
    digits? v.toList = some n ∧ canonical v = String.ofList (decimal n) := by
  obtain ⟨n, hn⟩ := uint?_of_kind h
  obtain ⟨hdigits, hlt⟩ := Option.filter_eq_some_iff.mp hn
  refine ⟨n, of_decide_eq_true hlt, hn, hdigits, ?_⟩
  rw [canonical, h, hn]
  rfl

/-- A whole number is spelled with a minus sign or with digits alone. -/
theorem int?_eq_some {m : Int} (h : int? v = some m) :
    (∃ s, v.toList = '-' :: s) ∨ ∃ n : Nat, digits? v.toList = some n ∧ m = n := by
  have hspells := (int?_iff.mp h).1
  generalize v.toList = s at hspells
  cases hspells with
  | digits hn => exact Or.inr ⟨_, digits?_iff_spells.mpr hn, rfl⟩
  | @negated s _ _ => exact Or.inl ⟨s, rfl⟩

private theorem int?_canonical_of_uint (h : kind v = .uint) {m : Int} (hm : int? v = some m) :
    int? (canonical v) = some m := by
  obtain ⟨n, -, -, hdigits, hcanonical⟩ := exists_numeral h
  obtain ⟨hlo, hhi⟩ := int?_bounds hm
  have hvalue : m = n := by
    rcases int?_eq_some hm with ⟨s, hs⟩ | ⟨k, hk, hmk⟩
    · obtain ⟨-, hall, -⟩ := digits?_eq_some.mp hdigits
      exact absurd (hall '-' (hs ▸ List.mem_cons_self)) (by decide)
    · rw [hmk, Option.some.inj (hk.symm.trans hdigits)]
  have hnumeral : decimal n = decimalInt m := by
    rw [hvalue]
    rfl
  rw [hcanonical, hnumeral]
  exact int?_decimalInt hlo hhi

/-- The canonical spelling can be read as everything that the value can be read as. -/
theorem keeps_canonical (v : String) : Keeps v (canonical v) := by
  cases hkind : kind v with
  | uint =>
    refine keeps_of_number (by simp [hkind]) (by simp [hkind]) ?_ ?_
    · intro n hn
      rw [uint?_canonical hkind, hn]
    · exact fun n hn => int?_canonical_of_uint hkind hn
  | int =>
    refine keeps_of_number (by simp [hkind]) (by simp [hkind]) ?_ ?_
    · intro n hn
      cases (uint?_eq_none (by simp [hkind])).symm.trans hn
    · intro n hn
      rw [int?_canonical hkind, hn]
  | double => exact keeps_of_double hkind _
  | _ =>
    rw [canonical_of_kind (by simp [hkind]) (by simp [hkind])]
    exact ⟨fun _ => id, fun _ => id, fun _ => id, fun _ => id⟩

theorem hex?_canonical {n : Nat} (h : hex? v = some n) : hex? (canonical v) = some n := by
  by_cases huint : kind v = .uint
  · obtain ⟨m, -, -, hdigits, hcanonical⟩ := exists_numeral huint
    rw [← h, hcanonical, hex?, hex?, String.toList_ofList, hexDigits?_decimal hdigits]
  · by_cases hint : kind v = .int
    · obtain ⟨m, hm⟩ := int?_of_kind hint
      rcases int?_eq_some hm with ⟨s, hs⟩ | ⟨k, hk, hmk⟩
      · have hnone : hexDigits? v.toList = none :=
          hexDigits?_eq_none (hs ▸ List.mem_cons_self) (by decide)
        rw [hex?, hnone] at h
        cases h
      · obtain ⟨-, hhi⟩ := int?_bounds hm
        have hlt : k < limit64 := by
          unfold limit63 at hhi
          unfold limit64
          omega
        have hnumeral : uint? v = some k :=
          Option.filter_eq_some_iff.mpr ⟨hk, decide_eq_true hlt⟩
        cases (uint?_eq_none huint).symm.trans hnumeral
    · rw [canonical_of_kind huint hint, h]

end Canonical

end Value
end DeviceLink
