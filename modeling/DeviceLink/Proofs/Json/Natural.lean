import DeviceLink.Proofs.Json.Value
import DeviceLink.Proofs.Result

/-! Whole numbers without a sign: they are read where their numerals stand, and nowhere else. -/
namespace DeviceLink.Text

theorem digitChar_of_isDigit {c : Char} (h : c.isDigit = true) :
    Nat.digitChar (c.toNat - '0'.toNat) = c := by
  have hc := toNat_of_isDigit h
  have hzero : '0'.toNat = 48 := rfl
  have hlt : c.toNat - '0'.toNat < 10 := by omega
  apply Char.toNat_inj.mp
  rw [Nat.toNat_digitChar_of_lt_ten hlt]
  omega

private theorem decimal_concat {m : Nat} (hm : 0 < m) {c : Char} (hc : c.isDigit = true) :
    decimal m ++ [c] = decimal (10 * m + (c.toNat - '0'.toNat)) := by
  have hbounds := toNat_of_isDigit hc
  have hzero : '0'.toNat = 48 := rfl
  have hlt : c.toNat - '0'.toNat < 10 := by omega
  have happend := Nat.toDigits_append_toDigits (b := 10) (by decide) hm hlt
  rwa [Nat.toDigits_of_lt_base hlt, digitChar_of_isDigit hc] at happend

theorem decimal_append {l : List Char} (hl : ∀ c ∈ l, c.isDigit = true) {m : Nat} (hm : 0 < m) :
    decimal m ++ l = decimal (Nat.ofDigitChars 10 l m) := by
  induction l generalizing m with
  | nil => rw [List.append_nil, Nat.ofDigitChars_nil]
  | cons c l ih =>
    have hc := hl c List.mem_cons_self
    have hstep : 0 < 10 * m + (c.toNat - '0'.toNat) := by omega
    rw [Nat.ofDigitChars_cons, List.append_cons, decimal_concat hm hc]
    exact ih (fun c hc => hl c (List.mem_cons_of_mem _ hc)) hstep

/-- Digits that begin with no needless zero are the numeral of a number. -/
theorem decimal_ofDigitChars {l : List Char} (hl : ∀ c ∈ l, c.isDigit = true)
    (hleading : l = ['0'] ∨ ∃ c r, l = c :: r ∧ c ≠ '0') :
    decimal (Nat.ofDigitChars 10 l 0) = l := by
  rcases hleading with rfl | ⟨c, r, rfl, hne⟩
  · rfl
  · have hc := hl c List.mem_cons_self
    have hbounds := toNat_of_isDigit hc
    have hzero : '0'.toNat = 48 := rfl
    have hpos : 0 < c.toNat - '0'.toNat := by
      have hnat : c.toNat ≠ '0'.toNat := mt Char.toNat_inj.mp hne
      omega
    have hlt : c.toNat - '0'.toNat < 10 := by omega
    have hfirst : decimal (c.toNat - '0'.toNat) = [c] := by
      rw [decimal, Nat.toDigits_of_lt_base hlt, digitChar_of_isDigit hc]
    have hall := decimal_append (fun c hc => hl c (List.mem_cons_of_mem _ hc)) hpos
    rw [Nat.ofDigitChars_cons, Nat.mul_zero, Nat.zero_add, ← hall, hfirst]
    rfl

end DeviceLink.Text

namespace DeviceLink.Json

open Text

/-- What comes after a number goes on with it in no way. -/
def EndsNumber (t : Octets) : Prop :=
  ∀ b ∈ t.head?, isDigit b = false ∧ b ≠ 0x2E ∧ Literal.isExponentMark b = false

theorem EndsNumber.noDigit {t : Octets} (h : EndsNumber t) : NoDigit t := by
  cases t with
  | nil => exact Or.inl rfl
  | cons b t => exact noDigit_cons (h b rfl).1 t

theorem exists_digit {b : UInt8} (h : isDigit b = true) :
    ∃ c : Char, c.isDigit = true ∧ UInt8.ofNat c.toNat = b := by
  have hall : ∀ n < 256, isDigit (UInt8.ofNat n) = true →
      (Char.ofNat n).isDigit = true ∧ UInt8.ofNat (Char.ofNat n).toNat = UInt8.ofNat n := by
    decide +kernel
  have hb : UInt8.ofNat b.toNat = b := UInt8.ofNat_toNat
  have hchar := hall b.toNat b.toNat_lt (by rwa [hb])
  rw [hb] at hchar
  exact ⟨_, hchar⟩

/-- Every text begins with digits, perhaps none, and goes on with no further one. -/
theorem exists_digits (s : Octets) : ∃ (l : List Char) (t : Octets),
    (∀ c ∈ l, c.isDigit = true) ∧ NoDigit t ∧ s = octets l ++ t := by
  induction s with
  | nil => exact ⟨[], [], List.forall_mem_nil _, Or.inl rfl, rfl⟩
  | cons b s ih =>
    cases hb : isDigit b with
    | false => exact ⟨[], b :: s, List.forall_mem_nil _, noDigit_cons hb s, rfl⟩
    | true =>
      obtain ⟨l, t, hl, ht, rfl⟩ := ih
      obtain ⟨c, hc, rfl⟩ := exists_digit hb
      refine ⟨c :: l, t, List.forall_mem_cons.mpr ⟨hc, hl⟩, ht, ?_⟩
      rw [octets_digit hc, List.cons_append]

/-- The octets of a numeral without needless zeros stand before what is left. -/
theorem of_readWhole {s t : Octets} {digits : List Nat}
    (h : Literal.readWhole s = .ok (digits, t)) : ∃ l : List Char,
      (∀ c ∈ l, c.isDigit = true) ∧ (l = ['0'] ∨ ∃ c r, l = c :: r ∧ c ≠ '0') ∧ NoDigit t ∧
      digits = digitValues l ∧ s = octets l ++ t := by
  obtain ⟨l, u, hl, hu, rfl⟩ := exists_digits s
  by_cases hleading : l = ['0'] ∨ ∃ c r, l = c :: r ∧ c ≠ '0'
  · rw [Spelling.readWhole_octets hl hleading hu] at h
    cases h
    exact ⟨l, hl, hleading, hu, rfl, rfl⟩
  · -- What is left are no digits at all, and a zero with another digit behind it.
    exfalso
    cases l with
    | nil =>
      rcases hu with rfl | ⟨b, u, rfl, hb⟩
      · cases h
      · have hzero : b ≠ 0x30 := by
          intro heq
          rw [heq] at hb
          cases hb
        simp [octets, Literal.readWhole, hzero, hb] at h
    | cons c l =>
      have hc : c = '0' := by
        by_contra hne
        exact hleading (Or.inr ⟨c, l, rfl, hne⟩)
      cases l with
      | nil => exact hleading (Or.inl (by rw [hc]))
      | cons d l =>
        have hd := hl d (List.mem_cons_of_mem _ List.mem_cons_self)
        rw [octets_digit (hl c List.mem_cons_self), octets_digit hd, hc] at h
        simp [Literal.readWhole, isDigit_octet hd] at h

theorem readFraction_eq_none {s t : Octets} :
    Literal.readFraction s = .ok (none, t) ↔ s = t ∧ ∀ u, s ≠ 0x2E :: u := by
  unfold Literal.readFraction
  split
  · constructor
    · intro h
      obtain ⟨r, -, h⟩ := bind_eq_ok.mp h
      cases h
    · intro h
      exact absurd rfl (h.2 _)
  · rename_i hpoint
    constructor
    · intro h
      cases h
      exact ⟨rfl, hpoint⟩
    · intro h
      rw [h.1]

theorem readExponent_eq_none {s t : Octets} :
    Literal.readExponent s = .ok (none, t) ↔
      s = t ∧ ∀ b ∈ s.head?, Literal.isExponentMark b = false := by
  cases s with
  | nil => simp [Literal.readExponent]
  | cons b s =>
    cases hb : Literal.isExponentMark b with
    | false => simp [Literal.readExponent, hb]
    | true =>
      constructor
      · intro h
        rw [Literal.readExponent, hb] at h
        obtain ⟨r, -, h⟩ := bind_eq_ok.mp h
        cases h
      · intro h
        exact absurd (h.2 b rfl) (by simp [hb])

/-- A literal of digits alone is the text of these digits. -/
theorem read_eq_whole {s t : Octets} {digits : List Nat} :
    Literal.read s = .ok (⟨digits, none, none⟩, t) ↔ ∃ l : List Char,
      (∀ c ∈ l, c.isDigit = true) ∧ (l = ['0'] ∨ ∃ c r, l = c :: r ∧ c ≠ '0') ∧
      digits = digitValues l ∧ s = octets l ++ t ∧ EndsNumber t := by
  constructor
  · intro h
    obtain ⟨⟨digits, u⟩, hwhole, h⟩ := bind_eq_ok.mp h
    obtain ⟨⟨fraction, v⟩, hfraction, h⟩ := bind_eq_ok.mp h
    obtain ⟨⟨exponent, w⟩, hexponent, h⟩ := bind_eq_ok.mp h
    cases h
    obtain ⟨l, hl, hleading, hdigit, hdigits, hs⟩ := of_readWhole hwhole
    obtain ⟨rfl, hpoint⟩ := readFraction_eq_none.mp hfraction
    obtain ⟨rfl, hmark⟩ := readExponent_eq_none.mp hexponent
    refine ⟨l, hl, hleading, hdigits, hs, ?_⟩
    intro b hb
    obtain ⟨u', rfl⟩ := List.head?_eq_some_iff.mp hb
    refine ⟨?_, fun heq => hpoint u' (by rw [heq]), hmark b hb⟩
    rcases hdigit with hnil | ⟨b', u'', hcons, hb'⟩
    · cases hnil
    · cases hcons
      exact hb'
  · intro h
    obtain ⟨l, hl, hleading, rfl, rfl, hends⟩ := h
    have hwhole := Spelling.readWhole_octets hl hleading hends.noDigit
    have hfraction : Literal.readFraction t = .ok (none, t) := by
      refine readFraction_eq_none.mpr ⟨rfl, ?_⟩
      intro u hu
      exact (hends 0x2E (congrArg List.head? hu)).2.1 rfl
    have hexponent : Literal.readExponent t = .ok (none, t) :=
      readExponent_eq_none.mpr ⟨rfl, fun b hb => (hends b hb).2.2⟩
    unfold Literal.read
    simp only [hwhole, hfraction, hexponent, bind, Except.bind]

/-- All digits are gathered exactly if their number fits into 64 bits. -/
theorem gather_eq_all {l : List Char} {m n : Nat} (hm : m < limit64) :
    Literal.gather m (digitValues l) = (n, 0) ↔ Nat.ofDigitChars 10 l m = n ∧ n < limit64 := by
  constructor
  · intro h
    induction l generalizing m with
    | nil =>
      cases h
      exact ⟨Nat.ofDigitChars_nil, hm⟩
    | cons c l ih =>
      have hstep : m * 10 + (c.toNat - '0'.toNat) = 10 * m + (c.toNat - '0'.toNat) := by omega
      rw [show digitValues (c :: l) = (c.toNat - '0'.toNat) :: digitValues l from rfl,
        Literal.gather, hstep] at h
      split_ifs at h with hlt
      · rw [Nat.ofDigitChars_cons]
        exact ih hlt h
      · cases h
  · intro h
    obtain ⟨rfl, hn⟩ := h
    exact gather_digitValues hn

/-- A minus sign stands before a whole number that is not zero. -/
theorem number?_eq_natural {negative : Bool} {l : Literal} {n : Nat} :
    l.number? negative = some (.integer n) ↔ negative = false ∧ l.fraction = none ∧
      l.exponent = none ∧ Literal.gather 0 l.whole = (n, 0) := by
  unfold Literal.number?
  generalize Literal.gather 0 l.whole = gathered
  obtain ⟨m, dropped⟩ := gathered
  dsimp only
  constructor
  · intro h
    by_cases hwhole : l.fraction = none ∧ l.exponent = none ∧ dropped = 0 ∧
        (negative = false ∨ (0 < m ∧ m ≤ limit63))
    · rw [if_pos hwhole] at h
      have hn := Number.integer.inj (Option.some.inj h)
      obtain ⟨hfraction, hexponent, rfl, hsign⟩ := hwhole
      cases negative with
      | false => exact ⟨rfl, hfraction, hexponent, congrArg (·, 0) (Int.ofNat.inj hn)⟩
      | true =>
        rw [if_pos rfl] at hn
        simp only [Bool.true_eq_false, false_or] at hsign
        omega
    · rw [if_neg hwhole] at h
      obtain ⟨x, -, hx⟩ := Option.map_eq_some_iff.mp h
      cases hx
  · intro h
    obtain ⟨rfl, hfraction, hexponent, hgather⟩ := h
    cases hgather
    rw [if_pos ⟨hfraction, hexponent, rfl, Or.inl rfl⟩]
    rfl

theorem readNumber_eq_natural {negative : Bool} {s t : Octets} {n : Nat} :
    readNumber negative s = .ok (.integer n, t) ↔ negative = false ∧ n < limit64 ∧
      s = octets (decimal n) ++ t ∧ EndsNumber t := by
  constructor
  · intro h
    obtain ⟨⟨l, u⟩, hread, h⟩ := bind_eq_ok.mp h
    dsimp only at h
    split at h
    · rename_i number hnumber
      cases h
      obtain ⟨hneg, hfraction, hexponent, hgather⟩ := number?_eq_natural.mp hnumber
      obtain ⟨digits, fraction, exponent⟩ := l
      cases hfraction
      cases hexponent
      obtain ⟨l, hl, hleading, rfl, hs, hends⟩ := read_eq_whole.mp hread
      obtain ⟨rfl, hn⟩ := (gather_eq_all (by decide)).mp hgather
      rw [decimal_ofDigitChars hl hleading]
      exact ⟨hneg, hn, hs, hends⟩
    · cases h
  · intro h
    obtain ⟨rfl, hn, rfl, hends⟩ := h
    have hdigits : ∀ c ∈ decimal n, c.isDigit = true := fun c hc => isDigit_of_mem_decimal hc
    have hleading := (decimal_cases n).imp_left And.right
    have hread := read_eq_whole.mpr ⟨decimal n, hdigits, hleading, rfl, rfl, hends⟩
    have hgather : Literal.gather 0 (digitValues (decimal n)) = (n, 0) :=
      (gather_eq_all (by decide)).mpr ⟨ofDigitChars_decimal n, hn⟩
    have hnumber : Literal.number? false ⟨digitValues (decimal n), none, none⟩ =
        some (.integer n) :=
      number?_eq_natural.mpr ⟨rfl, rfl, rfl, hgather⟩
    unfold readNumber
    simp only [hread, hnumber, bind, Except.bind]

theorem readScalar_eq_ofNat {s t : Octets} {n : Nat} :
    readScalar s = .ok (.ofNat n, t) ↔
      n < limit64 ∧ s = octets (decimal n) ++ t ∧ EndsNumber t := by
  constructor
  · intro h
    cases s with
    | nil => cases h
    | cons b s =>
      rw [readScalar] at h
      split_ifs at h
      · obtain ⟨_, -, h⟩ := bind_eq_ok.mp h
        cases h
      · obtain ⟨_, -, h⟩ := bind_eq_ok.mp h
        cases h
      · obtain ⟨_, -, h⟩ := bind_eq_ok.mp h
        cases h
      · obtain ⟨⟨number, u⟩, hr, h⟩ := bind_eq_ok.mp h
        cases h
        cases (readNumber_eq_natural.mp hr).1
      · obtain ⟨⟨number, u⟩, hr, h⟩ := bind_eq_ok.mp h
        cases h
        exact (readNumber_eq_natural.mp hr).2
      · obtain ⟨_, -, h⟩ := bind_eq_ok.mp h
        cases h
  · intro h
    have hread := readNumber_eq_natural.mpr ⟨rfl, h⟩
    obtain ⟨hn, rfl, hends⟩ := h
    obtain ⟨c, l, hl⟩ := List.exists_cons_of_ne_nil (decimal_ne_nil n)
    have hdigit : c.isDigit = true := isDigit_of_mem_decimal (hl ▸ List.mem_cons_self)
    rw [hl, octets_digit hdigit, List.cons_append] at hread ⊢
    rw [readScalar_digit (isDigit_octet hdigit), hread]
    rfl

/-- A number is read as it is read at the first octet that is not blank. -/
theorem readValue_eq_number {room : Nat} {s t : Octets} {x : Number} :
    readValue room s = .ok (.number x, t) ↔ readScalar (skipBlanks s) = .ok (.number x, t) := by
  cases hs : skipBlanks s with
  | nil => cases room <;> simp [readValue, readScalar, hs]
  | cons b u =>
    by_cases hitems : b = 0x5B
    · subst hitems
      have hscalar : readScalar (0x5B :: u) = .error .malformed := rfl
      rw [hscalar]
      cases room with
      | zero => simp [readValue, hs]
      | succ room =>
        simp only [readValue, hs, if_true, reduceCtorEq, iff_false]
        intro h
        obtain ⟨_, -, h⟩ := bind_eq_ok.mp h
        cases h
    · by_cases hmembers : b = 0x7B
      · subst hmembers
        have hscalar : readScalar (0x7B :: u) = .error .malformed := rfl
        rw [hscalar]
        cases room with
        | zero => simp [readValue, hs]
        | succ room =>
          simp only [readValue, hs, if_neg hitems, if_true, reduceCtorEq, iff_false]
          intro h
          obtain ⟨_, -, h⟩ := bind_eq_ok.mp h
          cases h
      · cases room <;> simp [readValue, hs, hitems, hmembers]

/-- A value is an unsigned whole number exactly where the digits of a number below `2 ^ 64` stand,
with no sign and no needless zero before them, and neither fraction nor exponent behind them. -/
theorem readValue_eq_ofNat {room : Nat} {s t : Octets} {n : Nat} :
    readValue room s = .ok (.ofNat n, t) ↔
      n < limit64 ∧ skipBlanks s = octets (decimal n) ++ t ∧ EndsNumber t :=
  readValue_eq_number.trans readScalar_eq_ofNat

end DeviceLink.Json
