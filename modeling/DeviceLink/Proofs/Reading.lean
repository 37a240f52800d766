import DeviceLink.Proofs.Kind
import DeviceLink.Reading
import Mathlib.Data.UInt

/-! What the value of a reading is read as: whole numbers and truth values are read in exactly the
spellings that have them, within the limits of 64 bits. -/
namespace DeviceLink.Reading

open Text

section Written

variable (reference : String) (timestamp : UInt64)

theorem uint?_padded (zeros : Nat) (n : UInt64) :
    (single reference (String.ofList (List.replicate zeros '0' ++ decimal n.toNat))
      timestamp).uint? = some n.toNat := by
  have hdigits := digits?_zeros (decimal_ne_nil n.toNat) zeros
  rw [digits?_decimal, digits?_iff_spells] at hdigits
  apply Value.uint?_iff.mpr
  rw [single, String.toList_ofList]
  exact ⟨hdigits, n.toNat_lt⟩

theorem int?_written (i : Int64) :
    (single reference (String.ofList (decimalInt i.toInt)) timestamp).int? = some i.toInt :=
  Value.int?_decimalInt i.le_toInt i.toInt_lt

theorem bool?_written (b : Bool) :
    (single reference (toString b) timestamp).bool? = some b :=
  Value.bool?_iff.mpr rfl

end Written

section Steps

variable (d : Format.DigitClass) (r : Reading)

/-- Formats and accessors agree, whatever characters the formats take for digits. -/
theorem formats_agree :
    ((Format.uint d).accepts r.value.toList = r.uint?.isSome ∧
      (Format.uint d).read? r.value.toList = r.uint?) ∧
    ((Format.int d).accepts r.value.toList = r.int?.isSome ∧
      (Format.int d).read? r.value.toList = r.int?) ∧
    (Format.isBoolean r.value = r.bool?.isSome ∧ Format.bool? r.value = r.bool?) ∧
    (Format.isHex r.value.toList = r.isHex ∧ Format.hex? r.value.toList = r.hex?) :=
  ⟨Format.uint_eq d r.value, Format.int_eq d r.value, (Format.bool?_eq r.value),
    Format.hex?_eq r.value⟩

end Steps

/-- Whole numbers and truth values are read in these spellings and no others, so they are read back
from what is written, with zeros before it too; an accessor has a value where its format accepts. -/
theorem read_exactly :
    (∀ r : Reading,
      (∀ n, r.uint? = some n ↔ Spells 10 DecimalDigit r.value.toList n ∧ n < 2 ^ 64) ∧
      (∀ i, r.int? = some i ↔ SpellsInt r.value.toList i ∧ -2 ^ 63 ≤ i ∧ i ≤ 2 ^ 63 - 1) ∧
      (∀ n, r.hex? = some n ↔ Spells 16 HexDigit r.value.toList n ∧ n < 2 ^ 64) ∧
      (∀ b, r.bool? = some b ↔ r.value = if b then "true" else "false")) ∧
    (∀ reference timestamp,
      (∀ (zeros : Nat) (n : UInt64),
        (single reference (String.ofList (List.replicate zeros '0' ++ decimal n.toNat))
          timestamp).uint? = some n.toNat) ∧
      (∀ i : Int64,
        (single reference (String.ofList (decimalInt i.toInt)) timestamp).int? = some i.toInt) ∧
      (∀ b : Bool, (single reference (toString b) timestamp).bool? = some b)) ∧
    (∀ (d : Format.DigitClass) (r : Reading),
      ((Format.uint d).accepts r.value.toList = r.uint?.isSome ∧
        (Format.uint d).read? r.value.toList = r.uint?) ∧
      ((Format.int d).accepts r.value.toList = r.int?.isSome ∧
        (Format.int d).read? r.value.toList = r.int?) ∧
      (Format.isBoolean r.value = r.bool?.isSome ∧ Format.bool? r.value = r.bool?) ∧
      (Format.isHex r.value.toList = r.isHex ∧ Format.hex? r.value.toList = r.hex?)) := by
  refine ⟨?_, ?_, formats_agree⟩
  · intro r
    refine ⟨fun n => Value.uint?_iff, ?_, fun n => Value.hex?_iff, ?_⟩
    · intro i
      have hlast : i ≤ 2 ^ 63 - 1 ↔ i < limit63 := by
        unfold limit63
        omega
      rw [hlast]
      exact Value.int?_iff
    · intro b
      cases b with
      | true => exact Value.bool?_iff
      | false => exact Value.bool?_iff
  · intro reference timestamp
    exact ⟨uint?_padded reference timestamp, int?_written reference timestamp,
      bool?_written reference timestamp⟩

end DeviceLink.Reading
