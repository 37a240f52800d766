import DeviceLink.Codec.Scalar
import DeviceLink.Proofs.Json.Value
import DeviceLink.Proofs.Kind

/-! Values as JSON scalars: which numerals they come back as. -/
namespace DeviceLink.Value

open Text

/-- The spelling of a value that its number is written with; texts and truth values have but
one. -/
def canonical (v : String) : String :=
  match kind v with
  | .uint => ((uint? v).map fun n => String.ofList (decimal n)).getD v
  | .int => ((int? v).map fun n => String.ofList (decimalInt n)).getD v
  | _ => v

section Kinds

variable {v : String}

theorem eq_of_kind_boolean (h : kind v = .boolean) : v = "true" ∨ v = "false" := kind_iff.1.mp h

theorem uint?_of_kind (h : kind v = .uint) : ∃ n, uint? v = some n :=
  Option.isSome_iff_exists.mp (isSome_uint?_iff.mpr (kind_iff.2.1.mp h))

theorem int?_of_kind (h : kind v = .int) : ∃ n, int? v = some n :=
  Option.isSome_iff_exists.mp (isSome_int?_iff.mpr (Or.inr (kind_iff.2.2.1.mp h)))

theorem toJson_whole (h : kind v = .uint ∨ kind v = .int) : ∃ n : Int,
    SpellsInt v.toList n ∧ -limit63 ≤ n ∧ n < limit64 ∧ toJson v = .number (.integer n) ∧
      canonical v = String.ofList (decimalInt n) := by
  unfold toJson canonical
  rcases h with h | h
  · obtain ⟨n, hn⟩ := uint?_of_kind h
    obtain ⟨hspells, hlt⟩ := uint?_iff.mp hn
    refine ⟨n, .digits hspells, ?_, Int.ofNat_lt.mpr hlt, ?_, ?_⟩
    · unfold limit63
      omega
    · rw [h, hn]
      rfl
    · rw [h, hn]
      rfl
  · obtain ⟨n, hn⟩ := int?_of_kind h
    obtain ⟨hspells, hlo, hhi⟩ := int?_iff.mp hn
    have hhi' : n < limit64 := Int.lt_trans hhi (by decide)
    refine ⟨n, hspells, hlo, hhi', ?_, ?_⟩
    · rw [h, hn]
      rfl
    · rw [h, hn]
      rfl

theorem toJson_cases (h : kind v ≠ .double) :
    (∃ b, toJson v = .bool b ∧ (if b then "true" else "false") = v ∧ canonical v = v) ∨
      (∃ n : Int, -limit63 ≤ n ∧ n < limit64 ∧ toJson v = .number (.integer n) ∧
        canonical v = String.ofList (decimalInt n)) ∨
      (toJson v = .string v ∧ canonical v = v) := by
  cases hkind : kind v with
  | boolean =>
    have hcanonical : canonical v = v := by rw [canonical, hkind]
    have hjson : toJson v = .bool (v = "true") := by rw [toJson, hkind]
    refine Or.inl ⟨_, hjson, ?_, hcanonical⟩
    rcases eq_of_kind_boolean hkind with rfl | rfl
    · rfl
    · rfl
  | uint =>
    obtain ⟨n, -, hwhole⟩ := toJson_whole (Or.inl hkind)
    exact Or.inr (Or.inl ⟨n, hwhole⟩)
  | int =>
    obtain ⟨n, -, hwhole⟩ := toJson_whole (Or.inr hkind)
    exact Or.inr (Or.inl ⟨n, hwhole⟩)
  | double => exact absurd hkind h
  | string =>
    refine Or.inr (Or.inr ⟨?_, ?_⟩)
    · rw [toJson, hkind]
    · rw [canonical, hkind]

theorem whole_toJson (h : kind v ≠ .double) (room : Nat) : Json.Whole room (toJson v) := by
  rcases toJson_cases h with ⟨b, hjson, -⟩ | ⟨n, hlo, hhi, hjson, -⟩ | ⟨hjson, -⟩
  · rw [hjson]
    exact .bool b
  · rw [hjson]
    exact .integer hlo hhi
  · rw [hjson]
    exact .string v

theorem toJson_of_double {x : Double} (hkind : kind v = .double) (hx : double? v = some x)
    (hfinite : x.isFinite = true) : toJson v = .number (.double x) := by
  rw [toJson, hkind, hx, Option.filter_some_pos hfinite]
  rfl

theorem toJson_of_no_finite (hkind : kind v = .double)
    (h : ∀ x, double? v = some x → ¬ x.isFinite = true) : toJson v = .string v := by
  have hnone : (double? v).filter Double.isFinite = none := Option.filter_eq_none_iff.mpr h
  rw [toJson, hkind, hnone]
  rfl

/-- Doubles are written when they are finite, and stay text when they are not. -/
theorem isScalar_toJson (v : String) : (toJson v).IsScalar := by
  by_cases hdouble : kind v = .double
  · by_cases h : ∃ x, double? v = some x ∧ x.isFinite = true
    · obtain ⟨x, hx, hfinite⟩ := h
      rw [toJson_of_double hdouble hx hfinite]
      exact .double hfinite
    · rw [toJson_of_no_finite hdouble fun x hx hfinite => h ⟨x, hx, hfinite⟩]
      exact .string v
  · rcases toJson_cases hdouble with ⟨b, hjson, -⟩ | ⟨n, hlo, hhi, hjson, -⟩ | ⟨hjson, -⟩
    · rw [hjson]
      exact .bool b
    · rw [hjson]
      exact .integer hlo hhi
    · rw [hjson]
      exact .string v

theorem legible_toJson (v : String) (room : Nat) : Json.Legible room (toJson v) :=
  (isScalar_toJson v).legible room

theorem ordered_toJson (h : kind v ≠ .double) : Json.Ordered (toJson v) := by
  rcases toJson_cases h with ⟨b, hjson, -⟩ | ⟨n, -, -, hjson, -⟩ | ⟨hjson, -⟩
  · rw [hjson]
    exact .bool b
  · rw [hjson]
    exact .number _
  · rw [hjson]
    exact .string v

/-- A value comes back from its scalar in its canonical spelling. -/
theorem ofJson?_toJson (h : kind v ≠ .double) : ofJson? (toJson v) = some (canonical v) := by
  rcases toJson_cases h with ⟨b, hjson, hb, hv⟩ | ⟨n, -, -, hjson, hv⟩ | ⟨hjson, hv⟩
  · rw [hjson, hv, ofJson?, hb]
  · rw [hjson, hv]
    rfl
  · rw [hjson, hv, ofJson?]

/-- A value is written as a number: it spells a whole number of 64 bits or a finite double. -/
def IsNumeric (v : String) : Prop :=
  kind v = .uint ∨ kind v = .int ∨ kind v = .double ∧ ∃ x, double? v = some x ∧ x.isFinite = true

theorem toJson_of_numeric (h : IsNumeric v) : ∃ x, toJson v = .number x := by
  rcases h with huint | hint | ⟨hdouble, x, hx, hfinite⟩
  · obtain ⟨n, -, -, -, hjson, -⟩ := toJson_whole (Or.inl huint)
    exact ⟨_, hjson⟩
  · obtain ⟨n, -, -, -, hjson, -⟩ := toJson_whole (Or.inr hint)
    exact ⟨_, hjson⟩
  · exact ⟨.double x, toJson_of_double hdouble hx hfinite⟩

theorem toJson_of_not_numeric (h : ¬ IsNumeric v) :
    (∃ b, toJson v = .bool b) ∨ toJson v = .string v := by
  unfold IsNumeric at h
  cases hkind : kind v with
  | boolean => exact Or.inl ⟨_, by rw [toJson, hkind]⟩
  | uint => exact absurd (Or.inl hkind) h
  | int => exact absurd (Or.inr (Or.inl hkind)) h
  | string => exact Or.inr (by rw [toJson, hkind])
  | double =>
    right
    apply toJson_of_no_finite hkind
    exact fun x hx hfinite => h (Or.inr (Or.inr ⟨hkind, x, hx, hfinite⟩))

theorem exists_number_iff : (∃ x, toJson v = .number x) ↔ IsNumeric v := by
  constructor
  · intro h
    obtain ⟨x, hx⟩ := h
    by_contra hnot
    rcases toJson_of_not_numeric hnot with ⟨b, hb⟩ | hstring
    · cases hb.symm.trans hx
    · cases hstring.symm.trans hx
  · exact toJson_of_numeric

/-- The canonical spelling of a number is a spelling of that number. -/
theorem uint?_canonical (h : kind v = .uint) : uint? (canonical v) = uint? v := by
  obtain ⟨n, hn⟩ := uint?_of_kind h
  have hcanonical : canonical v = String.ofList (decimal n) := by
    rw [canonical, h, hn]
    rfl
  rw [hcanonical, hn, uint?_decimal (uint?_lt hn)]

theorem int?_canonical (h : kind v = .int) : int? (canonical v) = int? v := by
  obtain ⟨n, hn⟩ := int?_of_kind h
  obtain ⟨hlo, hhi⟩ := int?_bounds hn
  have hcanonical : canonical v = String.ofList (decimalInt n) := by
    rw [canonical, h, hn]
    rfl
  rw [hcanonical, hn, int?_decimalInt hlo hhi]

end Kinds

end DeviceLink.Value
