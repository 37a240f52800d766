import DeviceLink.Proofs.Interpretation

/-! Spellings: the text that a value comes back with once it has been written as a JSON scalar, and
which values come back as they are. -/
namespace DeviceLink.Value

open Text

/-- The text with which a value comes back: a number has the one that it is rendered with after it
is read, any other value its own. -/
def returned (v : String) : String :=
  match (toJson v).reread with
  | .number x => (Json.number x).text
  | _ => v

/-- Spellings that come back as they are: of texts, of whole numbers without signs and zeros that
they do not need, and of those doubles that are rendered alike after they are read. -/
inductive Steady : String → Prop
  | text {v : String} : ¬ IsNumeric v → Steady v
  | whole {n : Int} : -limit63 ≤ n → n < limit64 → Steady (String.ofList (decimalInt n))
  | double {v : String} {x : Double} : kind v = .double → double? v = some x → x.isFinite = true →
    (Json.number (.double x)).reread.text = v → Steady v

section Scalars

variable {v : String}

/-- A value is written as the truth value that it spells, as a number, or as the text that it
is. -/
theorem toJson_scalar (v : String) :
    (∃ b, toJson v = .bool b ∧ (if b then "true" else "false") = v) ∨
      (∃ x, toJson v = .number x) ∨ toJson v = .string v := by
  by_cases hdouble : kind v = .double
  · by_cases hfinite : IsFiniteDouble v
    · obtain ⟨x, hx⟩ := toJson_of_finite hfinite
      exact Or.inr (Or.inl ⟨_, hx⟩)
    · exact Or.inr (Or.inr (toJson_of_not_finite hdouble hfinite))
  · rcases toJson_cases hdouble with ⟨b, hjson, hb, -⟩ | ⟨n, -, -, hjson, -⟩ | ⟨hjson, -⟩
    · exact Or.inl ⟨b, hjson, hb⟩
    · exact Or.inr (Or.inl ⟨_, hjson⟩)
    · exact Or.inr (Or.inr hjson)

theorem returned_of_not_numeric (h : ¬ IsNumeric v) : returned v = v := by
  unfold returned
  rcases toJson_of_not_numeric h with ⟨b, hjson⟩ | hjson
  · rw [hjson]
    rfl
  · rw [hjson]
    rfl

theorem returned_of_integer {n : Int} (h : toJson v = .number (.integer n)) :
    returned v = String.ofList (decimalInt n) := by
  rw [returned, h]
  rfl

theorem returned_of_double {x : Double} (h : toJson v = .number (.double x)) :
    returned v = (Json.number (.double x)).reread.text := by
  rw [returned, h]
  rfl

end Scalars

section Numerals

variable {n : Int}

theorem kind_decimalInt (hlo : -limit63 ≤ n) (hhi : n < limit64) :
    kind (String.ofList (decimalInt n)) = if n < 0 then .int else .uint := by
  cases n with
  | ofNat k =>
    have hunsigned : IsUnsigned (decimalInt (.ofNat k)) :=
      ⟨k, spells_decimal k, Int.ofNat_lt.mp hhi⟩
    have hsign : ¬ Int.ofNat k < 0 := Int.not_lt.mpr (Int.natCast_nonneg k)
    rw [if_neg hsign, kind_iff.2.1, String.toList_ofList]
    exact hunsigned
  | negSucc k =>
    have hle : k + 1 ≤ 2 ^ 63 := by
      unfold limit63 at hlo
      omega
    have hnegated : IsNegated (decimalInt (.negSucc k)) :=
      ⟨decimal (k + 1), k + 1, rfl, spells_decimal (k + 1), hle⟩
    rw [if_pos (Int.negSucc_lt_zero k), kind_iff.2.2.1, String.toList_ofList]
    exact hnegated

theorem toJson_decimalInt (hlo : -limit63 ≤ n) (hhi : n < limit64) :
    toJson (String.ofList (decimalInt n)) = .number (.integer n) := by
  have hkind := kind_decimalInt hlo hhi
  cases n with
  | ofNat k =>
    have hnumeral : uint? (String.ofList (decimalInt (.ofNat k))) = some k :=
      uint?_decimal (Int.ofNat_lt.mp hhi)
    have hsign : ¬ Int.ofNat k < 0 := Int.not_lt.mpr (Int.natCast_nonneg k)
    rw [if_neg hsign] at hkind
    rw [toJson, hkind, hnumeral]
    rfl
  | negSucc k =>
    have hnumeral := int?_decimalInt hlo (Int.lt_trans (Int.negSucc_lt_zero k) (by decide))
    rw [if_pos (Int.negSucc_lt_zero k)] at hkind
    rw [toJson, hkind, hnumeral]
    rfl

end Numerals

theorem steady_of_whole {v : String} (hkind : kind v = .uint ∨ kind v = .int)
    (h : returned v = v) : Steady v := by
  obtain ⟨n, -, hlo, hhi, hjson, -⟩ := toJson_whole hkind
  rw [← h, returned_of_integer hjson]
  exact .whole hlo hhi

/-- Exactly the steady spellings come back as they are. -/
theorem returned_eq_iff {v : String} : returned v = v ↔ Steady v := by
  constructor
  · intro h
    by_cases hnumeric : IsNumeric v
    · rcases hnumeric with huint | hint | ⟨hdouble, x, hx, hfinite⟩
      · exact steady_of_whole (Or.inl huint) h
      · exact steady_of_whole (Or.inr hint) h
      · rw [returned_of_double (toJson_of_double hdouble hx hfinite)] at h
        exact .double hdouble hx hfinite h
    · exact .text hnumeric
  · intro h
    cases h with
    | text hnumeric => exact returned_of_not_numeric hnumeric
    | whole hlo hhi => exact returned_of_integer (toJson_decimalInt hlo hhi)
    | double hdouble hx hfinite htext =>
      rw [returned_of_double (toJson_of_double hdouble hx hfinite), htext]

end DeviceLink.Value
