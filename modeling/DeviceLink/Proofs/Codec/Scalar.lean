import DeviceLink.Proofs.Spelling

/-! The scalar encoding: what is read back from the scalar of a value is a normal form of that
value, doubles apart. It is written as the same scalar, so it does not change any more. -/
namespace DeviceLink

namespace Text

/-- The numeral of a whole number: its digits without a zero before others, and a minus sign before
those of a negative number only. -/
inductive IsNumeral : List Char → Int → Prop
  | zero : IsNumeral ['0'] 0
  | positive {c : Char} {s : List Char} {n : Nat} :
    c ≠ '0' → Spells 10 DecimalDigit (c :: s) n → IsNumeral (c :: s) n
  | negative {c : Char} {s : List Char} {n : Nat} :
    c ≠ '0' → Spells 10 DecimalDigit (c :: s) n → IsNumeral ('-' :: c :: s) (-n)

section Numerals

variable {c : Char} {s : List Char} {n : Nat} {i : Int}

theorem eq_decimal_of_spells (hc : c ≠ '0') (h : Spells 10 DecimalDigit (c :: s) n) :
    c :: s = decimal n := by
  obtain ⟨-, hdigits, hvalue⟩ := digits?_eq_some.mp (digits?_iff_spells.mpr h)
  rw [← hvalue, decimal_ofDigitChars hdigits (Or.inr ⟨c, s, rfl, hc⟩)]

theorem pos_of_spells (hc : c ≠ '0') (h : Spells 10 DecimalDigit (c :: s) n) : 0 < n := by
  rw [Nat.pos_iff_ne_zero]
  rintro rfl
  have hzero : c :: s = ['0'] := eq_decimal_of_spells hc h
  exact hc (List.cons.inj hzero).1

private theorem isNumeral_decimalInt (i : Int) : IsNumeral (decimalInt i) i := by
  cases i with
  | ofNat n =>
    have hspells := spells_decimal n
    rcases decimal_cases n with ⟨rfl, -⟩ | ⟨c, s, hs, hc⟩
    · exact .zero
    · rw [hs] at hspells
      show IsNumeral (decimal n) n
      rw [hs]
      exact .positive hc hspells
  | negSucc n =>
    have hspells := spells_decimal (n + 1)
    rcases decimal_cases (n + 1) with ⟨hn, -⟩ | ⟨c, s, hs, hc⟩
    · cases hn
    · rw [hs] at hspells
      show IsNumeral ('-' :: decimal (n + 1)) (-(n + 1 : Nat))
      rw [hs]
      exact .negative hc hspells

theorem isNumeral_iff : IsNumeral s i ↔ s = decimalInt i := by
  constructor
  · intro h
    cases h with
    | zero => rfl
    | positive hc hspells => exact eq_decimal_of_spells hc hspells
    | @negative c s n hc hspells =>
      obtain ⟨k, rfl⟩ := Nat.exists_eq_add_one_of_ne_zero (pos_of_spells hc hspells).ne'
      exact congrArg (List.cons '-') (eq_decimal_of_spells hc hspells)
  · rintro rfl
    exact isNumeral_decimalInt i

end Numerals

end Text

namespace Value

open Text

theorem exists_ofJson? {j : Json} (h : j.IsScalar) : ∃ w, ofJson? j = some w := by
  cases h with
  | bool b => exact ⟨_, rfl⟩
  | integer => exact ⟨_, rfl⟩
  | double => exact ⟨_, rfl⟩
  | string s => exact ⟨s, rfl⟩

theorem toJson_truth (b : Bool) : toJson (if b then "true" else "false") = .bool b := by
  cases b <;> rfl

section Canonical

variable {v : String}

/-- A number keeps its value when it is spelled canonically, and has no other numeral. -/
theorem exists_numeral_canonical (h : kind v = .uint ∨ kind v = .int) :
    ∃ i, SpellsInt v.toList i ∧ ∀ s, IsNumeral s i ↔ s = (canonical v).toList := by
  obtain ⟨n, hspells, -, -, -, hcanonical⟩ := toJson_whole h
  rw [hcanonical, String.toList_ofList]
  exact ⟨n, hspells, fun s => isNumeral_iff⟩

theorem toJson_canonical (h : kind v ≠ .double) : toJson (canonical v) = toJson v := by
  rcases toJson_cases h with ⟨-, -, -, hv⟩ | ⟨n, hlo, hhi, hjson, hv⟩ | ⟨-, hv⟩
  · rw [hv]
  · rw [hv, hjson, toJson_decimalInt hlo hhi]
  · rw [hv]

/-- The kind may change, from signed to unsigned for zero with a minus sign, but not to a double. -/
theorem kind_canonical (h : kind v ≠ .double) : kind (canonical v) ≠ .double := by
  rcases toJson_cases h with ⟨-, -, -, hv⟩ | ⟨n, hlo, hhi, -, hv⟩ | ⟨-, hv⟩
  · rwa [hv]
  · rw [hv, kind_decimalInt hlo hhi]
    split_ifs <;> nofun
  · rwa [hv]

/-- A value and its canonical spelling are written as one scalar, and one text is read from it. -/
theorem canonical_canonical (h : kind v ≠ .double) : canonical (canonical v) = canonical v := by
  have hread := ofJson?_toJson (kind_canonical h)
  rw [toJson_canonical h, ofJson?_toJson h] at hread
  exact (Option.some.inj hread).symm

end Canonical

/-- What a value becomes when it is written as a scalar and read back, some number of times. -/
def relayed? : Nat → String → Option String
  | 0, v => some v
  | hops + 1, v => (ofJson? (toJson v)).bind (relayed? hops)

section Relayed

variable {v : String}

theorem relayed?_succ (h : kind v ≠ .double) (hops : Nat) :
    relayed? (hops + 1) v = relayed? hops (canonical v) := by
  rw [relayed?, ofJson?_toJson h]
  rfl

/-- No hop changes a canonical spelling. -/
theorem relayed?_canonical (h : kind v ≠ .double) (hops : Nat) :
    relayed? hops (canonical v) = some (canonical v) := by
  induction hops with
  | zero => rfl
  | succ hops ih => rw [relayed?_succ (kind_canonical h), canonical_canonical h, ih]

end Relayed

/-- Every value is written as a scalar and has a text when it is read back. Of a value that is no
double this text is a normal form: its own for a truth value or a string, the numeral of the same
number for a whole number. It is written as the same scalar, and passing it on changes it no more.
In the other direction truth values and whole numbers of 64 bits come back as they are. -/
theorem scalar_normal_form :
    (∀ v, (toJson v).IsScalar ∧ ∃ w, ofJson? (toJson v) = some w ∧
      (kind v ≠ .double →
        (kind v = .boolean ∨ kind v = .string → w = v) ∧
        (kind v = .uint ∨ kind v = .int →
          ∃ i, SpellsInt v.toList i ∧ ∀ s, IsNumeral s i ↔ s = w.toList) ∧
        toJson w = toJson v ∧ kind w ≠ .double ∧
        ∀ hops, relayed? (hops + 1) v = some w)) ∧
    (∀ b, (ofJson? (.bool b)).map toJson = some (.bool b)) ∧
    ∀ i : Int, -2 ^ 63 ≤ i → i ≤ 2 ^ 64 - 1 →
      (ofJson? (.number (.integer i))).map toJson = some (.number (.integer i)) := by
  refine ⟨?_, ?_, ?_⟩
  · intro v
    have hscalar := isScalar_toJson v
    refine ⟨hscalar, ?_⟩
    by_cases h : kind v = .double
    · obtain ⟨w, hw⟩ := exists_ofJson? hscalar
      exact ⟨w, hw, fun hne => absurd h hne⟩
    · refine ⟨canonical v, ofJson?_toJson h, fun _ => ?_⟩
      refine ⟨?_, exists_numeral_canonical, toJson_canonical h, kind_canonical h, ?_⟩
      · rintro (hkind | hkind)
        · exact canonical_of_kind (by simp [hkind]) (by simp [hkind])
        · exact canonical_of_kind (by simp [hkind]) (by simp [hkind])
      · intro hops
        rw [relayed?_succ h, relayed?_canonical h]
  · intro b
    exact congrArg some (toJson_truth b)
  · intro i hlo hhi
    have hhi' : i < limit64 := by
      unfold limit64
      omega
    exact congrArg some (toJson_decimalInt hlo hhi')

/-- Zero with a minus sign is a signed number, and from the first hop on an unsigned one. -/
theorem scalar_normal_form_minusZero :
    kind "-0" = .int ∧ kind "0" = .uint ∧ toJson "0" = toJson "-0" ∧
      (∃ i, SpellsInt "-0".toList i ∧ ∀ s, IsNumeral s i ↔ s = "0".toList) ∧
      (∀ hops, relayed? (hops + 1) "-0" = some "0") ∧
      (ofJson? (.number (.integer (2 ^ 64 - 1)))).map toJson =
        some (.number (.integer (2 ^ 64 - 1))) := by
  have hkind : kind "-0" = .int := by decide
  have htext : ofJson? (toJson "-0") = some "0" := by decide
  obtain ⟨hvalues, -, hwhole⟩ := scalar_normal_form
  obtain ⟨-, w, hw, hnormal⟩ := hvalues "-0"
  obtain ⟨-, hnumeral, hjson, -, hrelayed⟩ := hnormal (by simp [hkind])
  cases hw.symm.trans htext
  exact ⟨hkind, by decide, hjson, hnumeral (Or.inr hkind), hrelayed,
    hwhole _ (by decide) (by decide)⟩

end Value
end DeviceLink
