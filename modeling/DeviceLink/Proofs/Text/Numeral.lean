import DeviceLink.Text.Numeral
import Mathlib.Data.List.Induction

/-! Numerals: a number is read back from its decimal numeral, and exactly the texts of digits are
read, each as the number that they spell. -/
namespace DeviceLink.Text

theorem isDigit_of_mem_decimal {n : Nat} {c : Char} (h : c ∈ decimal n) : c.isDigit = true :=
  Nat.isDigit_of_mem_toDigits (by decide) (by decide) h

theorem ofDigitChars_decimal (n : Nat) : Nat.ofDigitChars 10 (decimal n) 0 = n :=
  Nat.ofDigitChars_toDigits (by decide) (by decide)

theorem decimal_ne_nil (n : Nat) : decimal n ≠ [] := Nat.toDigits_ne_nil

/-- Different numbers have different numerals. -/
theorem decimal_injective {m n : Nat} (h : decimal m = decimal n) : m = n := by
  rw [← ofDigitChars_decimal m, h, ofDigitChars_decimal]

@[simp] theorem digits?_decimal (n : Nat) : digits? (decimal n) = some n := by
  have hall : (decimal n).all Char.isDigit = true :=
    List.all_eq_true.mpr fun c hc => isDigit_of_mem_decimal hc
  unfold digits?
  rw [if_pos ⟨decimal_ne_nil n, hall⟩, ofDigitChars_decimal]

def DecimalDigit (c : Char) (d : Nat) : Prop := "0123456789".toList[d]? = some c

def HexDigit (c : Char) (d : Nat) : Prop :=
  "0123456789abcdef".toList[d]? = some c ∨ "0123456789ABCDEF".toList[d]? = some c

instance (c : Char) (d : Nat) : Decidable (DecimalDigit c d) := inferInstanceAs (Decidable (_ = _))

instance (c : Char) (d : Nat) : Decidable (HexDigit c d) := inferInstanceAs (Decidable (_ ∨ _))

/-- The number that digits, at least one, spell in a base, the most significant digit first. -/
inductive Spells (base : Nat) (digit : Char → Nat → Prop) : List Char → Nat → Prop
  | digit {c : Char} {d : Nat} : digit c d → Spells base digit [c] d
  | next {s : List Char} {n : Nat} {c : Char} {d : Nat} :
    Spells base digit s n → digit c d → Spells base digit (s ++ [c]) (base * n + d)

/-- The whole number that digits spell, negated where a minus sign stands before them. -/
inductive SpellsInt : List Char → Int → Prop
  | digits {s : List Char} {n : Nat} : Spells 10 DecimalDigit s n → SpellsInt s n
  | negated {s : List Char} {n : Nat} : Spells 10 DecimalDigit s n → SpellsInt ('-' :: s) (-n)

section Spells

variable {base : Nat} {digit : Char → Nat → Prop} {isDigit : Char → Bool} {value : Char → Nat}
  {s : List Char} {n : Nat}

/-- Numerals are texts of digits, and they are worth the fold of the values of these. -/
theorem spells_iff (h : ∀ c d, digit c d ↔ isDigit c = true ∧ value c = d) :
    Spells base digit s n ↔ s ≠ [] ∧ (∀ c ∈ s, isDigit c = true) ∧
      s.foldl (fun n c => base * n + value c) 0 = n := by
  constructor
  · intro hs
    induction hs with
    | @digit c d hd =>
      obtain ⟨hc, rfl⟩ := (h c d).mp hd
      simp [hc]
    | @next s n c d _ hd ih =>
      obtain ⟨hc, rfl⟩ := (h c d).mp hd
      obtain ⟨-, hall, hvalue⟩ := ih
      have hdigits : ∀ x ∈ s ++ [c], isDigit x = true := by
        simp only [List.forall_mem_append, List.forall_mem_singleton]
        exact ⟨hall, hc⟩
      refine ⟨by simp, hdigits, ?_⟩
      rw [List.foldl_append, hvalue]
      rfl
  · intro hs
    obtain ⟨hne, hall, rfl⟩ := hs
    induction s using List.reverseRecOn with
    | nil => exact absurd rfl hne
    | append_singleton s c ih =>
      simp only [List.forall_mem_append, List.forall_mem_singleton] at hall
      have hc : digit c (value c) := (h c _).mpr ⟨hall.2, rfl⟩
      rw [List.foldl_append, List.foldl_cons, List.foldl_nil]
      by_cases hs : s = []
      · subst hs
        simpa using Spells.digit hc
      · exact (ih hs hall.1).next hc

theorem forall_ascii {p : Char → Prop} (h : ∀ k < 128, p (Char.ofNat k)) {c : Char}
    (hc : c.toNat < 128) : p c := by
  have hcode := h c.toNat hc
  rwa [Char.ofNat_toNat] at hcode

theorem isDigit_lt {c : Char} (h : c.isDigit = true) : c.toNat < 128 := by
  have hle : c.toNat ≤ '9'.toNat := (Char.isDigit_iff_toNat.mp h).2
  exact Nat.lt_of_le_of_lt hle (by decide)

theorem decimalDigit_iff (c : Char) (d : Nat) :
    DecimalDigit c d ↔ c.isDigit = true ∧ c.toNat - 48 = d := by
  have htable : ∀ d < 10, "0123456789".toList[d]?.all fun c =>
      decide (c.isDigit = true ∧ c.toNat - 48 = d) := by
    decide
  constructor
  · intro h
    have hlt : d < 10 := (List.getElem?_eq_some_iff.mp h).1
    have hd := htable d hlt
    rw [h] at hd
    exact of_decide_eq_true hd
  · intro h
    obtain ⟨hc, rfl⟩ := h
    exact forall_ascii (p := fun c => c.isDigit = true → DecimalDigit c (c.toNat - 48))
      (by decide +kernel) (isDigit_lt hc) hc

theorem isHexDigit_lt {c : Char} (h : isHexDigit c = true) : c.toNat < 128 := by
  unfold isHexDigit at h
  simp only [Bool.or_eq_true, Bool.and_eq_true, decide_eq_true_eq, Char.isDigit_iff_toNat,
    Char.le_def, UInt32.le_iff_toNat_le] at h
  have hcode : c.toNat = c.val.toNat := rfl
  have hnine : '9'.toNat = 57 := rfl
  have hsmall : 'f'.val.toNat = 102 := rfl
  have hlarge : 'F'.val.toNat = 70 := rfl
  omega

theorem hexDigit_iff (c : Char) (d : Nat) :
    HexDigit c d ↔ isHexDigit c = true ∧ hexDigitValue c = d := by
  have htable : ∀ digits ∈ ["0123456789abcdef", "0123456789ABCDEF"], ∀ d < digits.toList.length,
      digits.toList[d]?.all fun c => decide (isHexDigit c = true ∧ hexDigitValue c = d) := by
    decide
  constructor
  · intro h
    have hlisted : ∀ digits ∈ ["0123456789abcdef", "0123456789ABCDEF"],
        digits.toList[d]? = some c → isHexDigit c = true ∧ hexDigitValue c = d := by
      intro digits hdigits hc
      have hlt : d < digits.toList.length := (List.getElem?_eq_some_iff.mp hc).1
      have hd := htable digits hdigits d hlt
      rw [hc] at hd
      exact of_decide_eq_true hd
    rcases h with h | h
    · exact hlisted _ List.mem_cons_self h
    · exact hlisted _ (List.mem_cons_of_mem _ List.mem_cons_self) h
  · intro h
    obtain ⟨hc, rfl⟩ := h
    exact forall_ascii (p := fun c => isHexDigit c = true → HexDigit c (hexDigitValue c))
      (by decide +kernel) (isHexDigit_lt hc) hc

theorem digits?_eq_some : digits? s = some n ↔
    s ≠ [] ∧ (∀ c ∈ s, c.isDigit = true) ∧ Nat.ofDigitChars 10 s 0 = n := by
  unfold digits?
  rw [Option.ite_none_right_eq_some, List.all_eq_true, Option.some.injEq, and_assoc]

theorem digits?_iff_spells : digits? s = some n ↔ Spells 10 DecimalDigit s n := by
  rw [digits?_eq_some, spells_iff decimalDigit_iff]
  rfl

theorem hexDigits?_iff_spells : hexDigits? s = some n ↔ Spells 16 HexDigit s n := by
  have hfold : (fun n c => n * 16 + hexDigitValue c) = fun n c => 16 * n + hexDigitValue c := by
    funext n c
    rw [Nat.mul_comm]
  unfold hexDigits?
  rw [Option.ite_none_right_eq_some, List.all_eq_true, Option.some.injEq, and_assoc, hfold,
    spells_iff hexDigit_iff]

theorem digits?_cons_eq_none {c : Char} (h : c.isDigit = false) (s : List Char) :
    digits? (c :: s) = none := by
  rw [Option.eq_none_iff_forall_ne_some]
  intro n hn
  have hc := (digits?_eq_some.mp hn).2.1 c List.mem_cons_self
  rw [h] at hc
  cases hc

theorem not_spells_cons {c : Char} (h : c.isDigit = false) :
    ¬ Spells 10 DecimalDigit (c :: s) n := by
  rw [← digits?_iff_spells, digits?_cons_eq_none h]
  nofun

/-- A plus sign and zeros before a number do not count. -/
theorem natural?_iff {limit : Nat} : natural? limit s = some n ↔
    ∃ sign digits, (sign = [] ∨ sign = ['+']) ∧ s = sign ++ digits ∧
      Spells 10 DecimalDigit digits n ∧ n < limit := by
  have hread : ∀ t, below? limit (digits? t) = some n ↔ Spells 10 DecimalDigit t n ∧ n < limit := by
    intro t
    rw [below?, Option.filter_eq_some_iff, digits?_iff_spells, decide_eq_true_eq]
  unfold natural?
  split
  · rename_i t
    rw [hread]
    constructor
    · intro h
      exact ⟨['+'], t, Or.inr rfl, rfl, h⟩
    · intro h
      obtain ⟨sign, digits, rfl | rfl, hs, hspells⟩ := h
      · obtain rfl := hs
        exact absurd hspells.1 (not_spells_cons (by decide))
      · obtain rfl := (List.cons.inj hs).2
        exact hspells
  · rename_i hplus
    rw [hread]
    constructor
    · intro h
      exact ⟨[], s, Or.inl rfl, rfl, h⟩
    · intro h
      obtain ⟨sign, digits, rfl | rfl, rfl, hspells⟩ := h
      · exact hspells
      · exact absurd rfl (hplus digits)

theorem spells_decimal (n : Nat) : Spells 10 DecimalDigit (decimal n) n :=
  digits?_iff_spells.mp (digits?_decimal n)

theorem spellsInt_decimalInt (i : Int) : SpellsInt (decimalInt i) i := by
  cases i with
  | ofNat n => exact .digits (spells_decimal n)
  | negSucc n => exact .negated (spells_decimal (n + 1))

theorem digits?_zero_cons (h : s ≠ []) : digits? ('0' :: s) = digits? s := by
  have hvalue : Nat.ofDigitChars 10 ('0' :: s) 0 = Nat.ofDigitChars 10 s 0 := by
    rw [Nat.ofDigitChars_cons]
    rfl
  unfold digits?
  simp [hvalue, h]

/-- Zeros before a numeral count for nothing. -/
theorem digits?_zeros (h : s ≠ []) (k : Nat) :
    digits? (List.replicate k '0' ++ s) = digits? s := by
  induction k with
  | zero => rfl
  | succ k ih =>
    have hrest : List.replicate k '0' ++ s ≠ [] := by simp [h]
    rw [List.replicate_succ, List.cons_append, digits?_zero_cons hrest, ih]

end Spells

end DeviceLink.Text
