import DeviceLink.Json.Reader
import DeviceLink.Proofs.Double.Shortest
import DeviceLink.Proofs.Json.Number

/-! Doubles in JSON: the text of every finite double is read as a double again. The reader rounds
up to three times, so it need not be the same one, but it is never past all doubles. -/
namespace DeviceLink.Json

open Text Double

section Digits

theorem le_ofDigitChars_length (l : List Char) (m : Nat) :
    m * tenTo l.length ≤ Nat.ofDigitChars 10 l m := by
  have hsplit : Nat.ofDigitChars 10 l m = tenTo l.length * m + Nat.ofDigitChars 10 l 0 :=
    Nat.ofDigitChars_eq_ofDigitChars_zero
  rw [hsplit, Nat.mul_comm]
  exact Nat.le_add_right _ _

theorem ofDigitChars_lt {l : List Char} (hl : ∀ c ∈ l, c.isDigit = true) (m : Nat) :
    Nat.ofDigitChars 10 l m < (m + 1) * tenTo l.length := by
  induction l generalizing m with
  | nil => exact (Nat.lt_succ_self m).trans_eq (Nat.mul_one (m + 1)).symm
  | cons c l ih =>
    have hc := toNat_of_isDigit (hl c List.mem_cons_self)
    have hzero : '0'.toNat = 48 := rfl
    have hrest := ih (fun c hc => hl c (List.mem_cons_of_mem _ hc)) (10 * m + (c.toNat - '0'.toNat))
    have hpower : tenTo (l.length + 1) = 10 * tenTo l.length := Nat.pow_succ'
    rw [Nat.ofDigitChars_cons, List.length_cons, hpower]
    calc
      Nat.ofDigitChars 10 l (10 * m + (c.toNat - '0'.toNat))
      _ < (10 * m + (c.toNat - '0'.toNat) + 1) * tenTo l.length := hrest
      _ ≤ (10 * (m + 1)) * tenTo l.length := Nat.mul_le_mul_right _ (by omega)
      _ = (m + 1) * (10 * tenTo l.length) := by ring

/-- What is gathered is not above the number of all digits, and the digits left out are
counted. -/
theorem gather_le (l : List Char) (m : Nat) :
    (Literal.gather m (digitValues l)).1 * tenTo (Literal.gather m (digitValues l)).2 ≤
        Nat.ofDigitChars 10 l m ∧
      (Literal.gather m (digitValues l)).2 ≤ l.length ∧
      (m < limit64 → (Literal.gather m (digitValues l)).1 < limit64) := by
  induction l generalizing m with
  | nil => exact ⟨(Nat.mul_one m).le, Nat.le_refl 0, id⟩
  | cons c l ih =>
    have hstep : m * 10 + (c.toNat - '0'.toNat) = 10 * m + (c.toNat - '0'.toNat) := by omega
    have hvalues : digitValues (c :: l) = (c.toNat - '0'.toNat) :: digitValues l := rfl
    rw [hvalues, Literal.gather, hstep]
    split_ifs with hfits
    · obtain ⟨hle, hcount, hlt⟩ := ih (10 * m + (c.toNat - '0'.toNat))
      rw [Nat.ofDigitChars_cons]
      exact ⟨hle, hcount.trans (Nat.le_succ _), fun _ => hlt hfits⟩
    · have hlength : (digitValues l).length + 1 = (c :: l).length := by
        rw [digitValues, List.length_map, List.length_cons]
      dsimp only
      rw [hlength]
      exact ⟨le_ofDigitChars_length _ m, Nat.le_refl _, id⟩

theorem exponentValue?_decimal (n : Nat) : Literal.exponentValue? (digitValues (decimal n)) =
    if n < limit31 then some n else none := by
  have hfold : ∀ (l : List Char) (m : Nat),
      (digitValues l).foldl (fun n d => n * 10 + d) m = Nat.ofDigitChars 10 l m := by
    intro l
    induction l with
    | nil => exact fun m => rfl
    | cons c l ih =>
      intro m
      have hstep : m * 10 + (c.toNat - '0'.toNat) = 10 * m + (c.toNat - '0'.toNat) := by omega
      rw [Nat.ofDigitChars_cons, ← ih, ← hstep]
      rfl
  unfold Literal.exponentValue?
  rw [hfold, ofDigitChars_decimal]

end Digits

section Scaled

variable {m : Nat} {e : Int}

theorem ofDecimal_one (hlo : 0 ≤ e) (hhi : e ≤ 308) :
    ofDecimal 1 e = Double.ofNat (tenTo e.toNat) := by
  have hlength : (Nat.toDigits 10 1).length = 1 := rfl
  unfold ofDecimal
  rw [if_neg Nat.one_ne_zero, hlength]
  dsimp only
  rw [if_neg (by omega), if_neg (by omega), if_pos hlo, Nat.one_mul]

/-- Up to the reach of two roundings a decimal is not refused. -/
theorem isSome_scaled? (hm : m < limit64) (h : 0 ≤ e → m * tenTo e.toNat ≤ reach) :
    (Literal.scaled? m e).isSome = true := by
  have hsignificand : m * twoTo 1074 < overflow := by
    have hlimit : limit64 * twoTo 1074 < overflow := by decide +kernel
    exact Nat.lt_of_le_of_lt (Nat.mul_le_mul_right _ hm.le) hlimit
  unfold Literal.scaled?
  dsimp only
  by_cases hlarge : 308 < e
  · have hzero : m = 0 := by
      by_contra hne
      have hreach : reach < tenTo 309 := by decide +kernel
      have hpower : tenTo 309 ≤ tenTo e.toNat := tenTo_le (by omega)
      have hle : tenTo e.toNat ≤ m * tenTo e.toNat :=
        Nat.le_mul_of_pos_left _ (Nat.pos_of_ne_zero hne)
      have hbound := h (by omega)
      omega
    have hisZero : (Double.ofNat 0).isZero = true := by decide +kernel
    rw [if_pos hlarge, hzero, hisZero]
    rfl
  rw [if_neg hlarge]
  by_cases hlo : 0 ≤ e
  · have hpower : tenTo e.toNat * twoTo 1074 < overflow := by
      have hlast : tenTo 308 * twoTo 1074 < overflow := by decide +kernel
      have hle : tenTo e.toNat ≤ tenTo 308 := tenTo_le (by omega)
      exact Nat.lt_of_le_of_lt (Nat.mul_le_mul_right _ hle) hlast
    have hfinite := isFinite_mul hsignificand hpower (h hlo)
    rw [if_pos hlo, ofDecimal_one hlo (by omega), not_isInfinite hfinite]
    rfl
  · rw [if_neg hlo]
    split_ifs <;> rfl

end Scaled

namespace Spelling

/-- Digits that begin with no zero. -/
def Significant (l : List Char) : Prop :=
  (∀ c ∈ l, c.isDigit = true) ∧ ∃ c r, l = c :: r ∧ c ≠ '0'

theorem significant_decimal {n : Nat} (h : 0 < n) : Significant (decimal n) := by
  refine ⟨fun c hc => isDigit_of_mem_decimal hc, ?_⟩
  rcases decimal_cases n with ⟨hzero, -⟩ | hleading
  · omega
  · exact hleading

section Positional

/-- Digits with the point after the first `whole` of them. -/
def positional (digits : List Char) (whole : Int) : Spelling :=
  if whole ≤ 0 then ⟨['0'], some (List.replicate whole.natAbs '0' ++ digits), none⟩
  else if digits.length ≤ whole.toNat then
    ⟨digits ++ List.replicate (whole.toNat - digits.length) '0', some ['0'], none⟩
  else ⟨digits.take whole.toNat, some (digits.drop whole.toNat), none⟩

theorem chars_positional (digits : List Char) (whole : Int) :
    (positional digits whole).chars = placePoint true digits whole := by
  unfold positional placePoint
  dsimp only
  by_cases hsmall : whole ≤ 0
  · rw [if_pos hsmall, if_pos hsmall]
    simp [chars, fractionChars, exponentChars]
  rw [if_neg hsmall, if_neg hsmall]
  by_cases hlong : digits.length ≤ whole.toNat
  · rw [if_pos hlong, if_pos hlong]
    simp [chars, fractionChars, exponentChars]
  · rw [if_neg hlong, if_neg hlong]
    simp [chars, fractionChars, exponentChars]

theorem valid_positional {digits : List Char} (h : Significant digits) (whole : Int) :
    (positional digits whole).Valid := by
  obtain ⟨hdigits, c, r, rfl, hc⟩ := h
  have hzeros : ∀ n, ∀ d ∈ List.replicate n '0', d.isDigit = true := by
    intro n d hd
    rw [List.eq_of_mem_replicate hd]
    rfl
  unfold positional
  split_ifs with hsmall hlong
  · refine ⟨List.forall_mem_singleton.mpr rfl, Or.inl rfl, ?_, by rintro e ⟨⟩⟩
    rintro l ⟨⟩
    refine ⟨by simp, fun d hd => ?_⟩
    rcases List.mem_append.mp hd with hd | hd
    · exact hzeros _ d hd
    · exact hdigits d hd
  · refine ⟨fun d hd => ?_, Or.inr ⟨c, _, rfl, hc⟩, ?_, by rintro e ⟨⟩⟩
    · rcases List.mem_append.mp hd with hd | hd
      · exact hdigits d hd
      · exact hzeros _ d hd
    · rintro l ⟨⟩
      exact ⟨List.cons_ne_nil _ _, List.forall_mem_singleton.mpr rfl⟩
  · obtain ⟨w, hw⟩ : ∃ w, whole.toNat = w + 1 := ⟨whole.toNat - 1, by omega⟩
    rw [hw] at hlong ⊢
    refine ⟨fun d hd => hdigits d (List.mem_of_mem_take hd), Or.inr ⟨c, _, rfl, hc⟩, ?_,
      by rintro e ⟨⟩⟩
    rintro l ⟨⟩
    refine ⟨?_, fun d hd => hdigits d (List.mem_of_mem_drop hd)⟩
    rw [ne_eq, List.drop_eq_nil_iff]
    exact hlong

theorem length_whole_positional (digits : List Char) {whole : Int} (h : whole ≤ 16) :
    (positional digits whole).whole.length ≤ 16 := by
  unfold positional
  split_ifs with hsmall hlong
  · exact (by decide : 1 ≤ 16)
  · rw [List.length_append, List.length_replicate]
    omega
  · exact (List.length_take_le _ _).trans (by omega)

/-- A number of at most 16 digits before the point is not refused. -/
theorem isSome_magnitude?_plain {l f : List Char} (hl : ∀ c ∈ l, c.isDigit = true)
    (hlength : l.length ≤ 16) : (literal ⟨l, some f, none⟩).magnitude?.isSome = true := by
  have hvalue : Nat.ofDigitChars 10 l 0 < limit64 := by
    have hlt := ofDigitChars_lt hl 0
    have hle : tenTo l.length ≤ tenTo 16 := tenTo_le hlength
    have hlimit : tenTo 16 < limit64 := by decide
    omega
  have hwhole := gather_digitValues hvalue
  obtain ⟨-, hcount, hlt⟩ := gather_le f (Nat.ofDigitChars 10 l 0)
  have hlength : (digitValues f).length = f.length := List.length_map _
  unfold Literal.magnitude? literal
  simp only [Option.map_some, Option.map_none, Option.getD_some, hwhole, hlength]
  apply isSome_scaled? (hlt hvalue)
  intro hnonneg
  have hzero : (((0 : Nat) : Int) - ((f.length - (Literal.gather (Nat.ofDigitChars 10 l 0)
      (digitValues f)).2 : Nat) : Int)).toNat = 0 := by omega
  rw [hzero]
  have hreach : limit64 * tenTo 0 ≤ reach := by decide +kernel
  exact (Nat.mul_le_mul_right _ (hlt hvalue).le).trans hreach

theorem positional_eq (digits : List Char) (whole : Int) : ∃ l f,
    positional digits whole = ⟨l, some f, none⟩ := by
  unfold positional
  split_ifs
  · exact ⟨_, _, rfl⟩
  · exact ⟨_, _, rfl⟩
  · exact ⟨_, _, rfl⟩

end Positional

section Scientific

/-- Digits with a point after the first, and the exponent of that first digit. -/
def scientific (d : Char) (more : List Char) (exponent : Int) : Spelling :=
  ⟨[d], if more = [] then none else some more,
    some (decide (exponent < 0), decimal exponent.natAbs)⟩

theorem chars_scientific (d : Char) (more : List Char) (exponent : Int) :
    (scientific d more exponent).chars = withExponent (d :: more) exponent := by
  unfold scientific withExponent
  cases more with
  | nil => simp [chars, fractionChars, exponentChars, decimal]
  | cons c more => simp [chars, fractionChars, exponentChars, decimal]

theorem valid_scientific {d : Char} {more : List Char} (h : Significant (d :: more))
    (exponent : Int) : (scientific d more exponent).Valid := by
  obtain ⟨hdigits, c, r, heq, hc⟩ := h
  obtain ⟨rfl, rfl⟩ := List.cons.inj heq
  refine ⟨fun e he => ?_, Or.inr ⟨d, [], rfl, hc⟩, fun l hl => ?_, fun e he => ?_⟩
  · rw [List.mem_singleton.mp he]
    exact hdigits d List.mem_cons_self
  · dsimp only [scientific] at hl
    split_ifs at hl with hmore
    · cases hl
    · cases hl
      exact ⟨hmore, fun c hc => hdigits c (List.mem_cons_of_mem _ hc)⟩
  · cases he
    exact ⟨decimal_ne_nil _, fun c hc => isDigit_of_mem_decimal hc⟩

/-- A decimal within reach has few digits before the point. -/
theorem place_lt {n place : Nat} {d : Char} {more : List Char} (hdigits : decimal n = d :: more)
    (hn : 0 < n) (h : n * tenTo place ≤ reach * tenTo 400) : more.length + place < 709 := by
  have hleast : tenTo more.length ≤ n := by
    rcases Nat.eq_zero_or_pos more.length with hzero | hpos
    · rw [hzero]
      exact hn
    · have hlength : (Nat.toDigits 10 n).length = more.length + 1 := congrArg List.length hdigits
      have hiff := Nat.length_toDigits_le_iff (n := n) (by decide : 1 < 10) hpos
      exact Nat.le_of_not_lt fun hlt => absurd (hiff.mpr hlt) (by omega)
  have hreach : reach * tenTo 400 < tenTo 709 := by decide +kernel
  apply lt_of_tenTo_lt
  calc
    tenTo (more.length + place) = tenTo more.length * tenTo place := tenTo_add _ _
    _ ≤ n * tenTo place := Nat.mul_le_mul_right _ hleast
    _ ≤ reach * tenTo 400 := h
    _ < tenTo 709 := hreach

/-- A decimal within reach is not refused, however its exponent is written. -/
theorem isSome_magnitude?_scientific {n place : Nat} {d : Char} {more : List Char}
    (hdigits : decimal n = d :: more) (hn : 0 < n) (h : n * tenTo place ≤ reach * tenTo 400) :
    (scientific d more ((place : Int) + more.length - 400)).literal.magnitude?.isSome = true := by
  have hdigit : d.isDigit = true := isDigit_of_mem_decimal (hdigits ▸ List.mem_cons_self)
  have hbounds := toNat_of_isDigit hdigit
  have hzero : '0'.toNat = 48 := rfl
  have hvalue : Nat.ofDigitChars 10 [d] 0 = d.toNat - '0'.toNat := by
    rw [Nat.ofDigitChars_cons, Nat.ofDigitChars_nil, Nat.mul_zero, Nat.zero_add]
  have hfits : Nat.ofDigitChars 10 [d] 0 < limit64 := by
    rw [hvalue]
    exact Nat.lt_of_le_of_lt (show d.toNat - '0'.toNat ≤ 9 by omega) (by decide)
  have hwhole := gather_digitValues hfits
  have hfraction : ((if more = [] then none else some more : Option (List Char)).map
      digitValues).getD [] = digitValues more := by
    split_ifs with hmore
    · rw [hmore]
      rfl
    · rfl
  have hlength : (digitValues more).length = more.length := List.length_map _
  -- The digits after the first go on where the first one ends.
  have hall : Nat.ofDigitChars 10 more (Nat.ofDigitChars 10 [d] 0) = n := by
    rw [← Nat.ofDigitChars_append, List.singleton_append, ← hdigits, ofDigitChars_decimal]
  obtain ⟨hle, hcount, hlt⟩ := gather_le more (Nat.ofDigitChars 10 [d] 0)
  rw [hall] at hle
  unfold Literal.magnitude? literal scientific
  simp only [Option.map_some, hwhole, hfraction, hlength, exponentValue?_decimal]
  generalize Literal.gather (Nat.ofDigitChars 10 [d] 0) (digitValues more) = r at hle hcount hlt ⊢
  by_cases hneg : (place : Int) + more.length - 400 < 0
  · simp only [hneg, decide_true, if_true, or_true]
    by_cases hsmall : ((place : Int) + more.length - 400).natAbs < limit31
    · rw [if_pos hsmall]
      exact isSome_scaled? (hlt hfits) fun hnonneg => by omega
    · rw [if_neg hsmall]
      rfl
  · have hplace := place_lt hdigits hn h
    have hsmall : ((place : Int) + more.length - 400).natAbs < limit31 := by
      unfold limit31
      omega
    rw [if_pos hsmall]
    simp only [hneg, decide_false, Bool.false_eq_true, if_false]
    apply isSome_scaled? (hlt hfits)
    intro hnonneg
    generalize hk : (((0 : Nat) : Int) - ((more.length - r.2 : Nat) : Int) +
      ((((place : Int) + more.length - 400).natAbs : Nat) : Int)).toNat = k
    have hpower : k + 400 = r.2 + place := by omega
    apply Nat.le_of_mul_le_mul_right _ (tenTo_pos 400)
    calc
      r.1 * tenTo k * tenTo 400 = r.1 * tenTo (k + 400) := by rw [tenTo_add, Nat.mul_assoc]
      _ = r.1 * tenTo r.2 * tenTo place := by rw [hpower, tenTo_add, Nat.mul_assoc]
      _ ≤ n * tenTo place := Nat.mul_le_mul_right _ hle
      _ ≤ reach * tenTo 400 := h

end Scientific

end Spelling

/-- The text of a number that is read as a double. -/
structure Spelling.IsDouble (p : Spelling) : Prop where
  valid : p.Valid
  /-- It is not the text of a whole number. -/
  parts : p.fraction ≠ none ∨ p.exponent ≠ none
  inRange : p.literal.magnitude?.isSome = true

section Doubles

variable {x : Double}

/-- A double is written as a number, with its sign before it. -/
def Spells (x : Double) (p : Spelling) : Prop :=
  x.text .json = if x.isNegative then '-' :: p.chars else p.chars

theorem isDouble_zero : Spelling.IsDouble ⟨['0'], some ['0'], none⟩ where
  valid := by
    refine ⟨List.forall_mem_singleton.mpr rfl, Or.inl rfl, ?_, by rintro e ⟨⟩⟩
    rintro l ⟨⟩
    exact ⟨List.cons_ne_nil _ _, List.forall_mem_singleton.mpr rfl⟩
  parts := Or.inl (Option.some_ne_none _)
  inRange := Spelling.isSome_magnitude?_plain (List.forall_mem_singleton.mpr rfl) (by decide)

theorem spells_zero (hfinite : x.isFinite = true) (hzero : x.isZero = true) :
    Spells x ⟨['0'], some ['0'], none⟩ := by
  unfold Spells Double.text
  rw [hfinite, not_isInfinite hfinite, hzero]
  rfl

/-- The text of the digits `d :: more` with the exponent of the first. -/
def spelling (d : Char) (more : List Char) (exponent : Int) : Spelling :=
  if -5 ≤ exponent ∧ exponent < 16 then .positional (d :: more) (exponent + 1)
  else .scientific d more exponent

theorem spells_shortest (hfinite : x.isFinite = true) (hzero : x.isZero = false) {d : Char}
    {more : List Char} (hdigits : decimal (x.shortest .even).count = d :: more) :
    Spells x (spelling d more ((x.shortest .even).place + more.length - 400)) := by
  have hexponent : ((x.shortest .even).place : Int) + ((d :: more).length : Nat) - 1 - 400 =
      (x.shortest .even).place + more.length - 400 := by
    rw [List.length_cons]
    omega
  have hlayout : ∀ e : Int, Layout.json.positional e = true ↔ -5 ≤ e ∧ e < 16 := by
    intro e
    show (decide (-5 ≤ e) && decide (e < 16)) = true ↔ _
    rw [Bool.and_eq_true, decide_eq_true_eq, decide_eq_true_eq]
  have hchars : ∀ e : Int, (if Layout.json.positional e then
      placePoint true (d :: more) (e + 1) else withExponent (d :: more) e) =
        (spelling d more e).chars := by
    intro e
    unfold spelling
    by_cases hplain : -5 ≤ e ∧ e < 16
    · rw [if_pos hplain, if_pos ((hlayout e).mpr hplain), Spelling.chars_positional]
    · rw [if_neg hplain, if_neg (mt (hlayout e).mp hplain), Spelling.chars_scientific]
  unfold decimal at hdigits
  unfold Spells Double.text
  rw [hfinite, not_isInfinite hfinite, hzero]
  simp only [Bool.not_true, Bool.false_and, Bool.false_eq_true, if_false]
  have hcount : Nat.toDigits 10 (x.shortest Layout.json.tie).count = d :: more := hdigits
  have hplace : (x.shortest Layout.json.tie).place = (x.shortest .even).place := rfl
  rw [hcount, hplace, hexponent]
  have hpoint : Layout.json.keepsPoint = true := rfl
  rw [hpoint, hchars]

theorem isDouble_scientific {d : Char} {more : List Char} {e : Int}
    (hdigits : Spelling.Significant (d :: more))
    (h : (Spelling.scientific d more e).literal.magnitude?.isSome = true) :
    (Spelling.scientific d more e).IsDouble where
  valid := Spelling.valid_scientific hdigits e
  parts := Or.inr (Option.some_ne_none _)
  inRange := h

theorem isDouble_spelling {n place : Nat} {d : Char} {more : List Char}
    (hdigits : decimal n = d :: more) (hn : 0 < n) (h : n * tenTo place ≤ reach * tenTo 400) :
    (spelling d more (place + more.length - 400)).IsDouble := by
  have hsignificant := Spelling.significant_decimal hn
  have hscientific := Spelling.isSome_magnitude?_scientific hdigits hn h
  rw [hdigits] at hsignificant
  generalize (place : Int) + more.length - 400 = e at hscientific ⊢
  unfold spelling
  by_cases hplain : -5 ≤ e ∧ e < 16
  · have hvalid := Spelling.valid_positional hsignificant (e + 1)
    have hlength := Spelling.length_whole_positional (d :: more) (show e + 1 ≤ 16 by omega)
    obtain ⟨l, f, hparts⟩ := Spelling.positional_eq (d :: more) (e + 1)
    rw [if_pos hplain]
    rw [hparts] at hvalid hlength ⊢
    exact ⟨hvalid, Or.inl (Option.some_ne_none f),
      Spelling.isSome_magnitude?_plain hvalid.whole hlength⟩
  · rw [if_neg hplain]
    exact isDouble_scientific hsignificant hscientific

/-- The two largest doubles are too near the end for a bound on roundings, but their digits are
rounded down. -/
theorem exists_spells_largest (negative : Bool) {b : Nat}
    (h : b = infinityBits - 1 ∨ b = infinityBits - 2) :
    ∃ p, p.IsDouble ∧ Spells (ofMagnitude negative b) p := by
  unfold Spells
  rcases h with rfl | rfl
  · have hdigits : Spelling.Significant "17976931348623157".toList :=
      ⟨List.all_eq_true.mp rfl, '1', _, rfl, by decide⟩
    refine ⟨_, isDouble_scientific hdigits (e := 308) (by decide +kernel), ?_⟩
    cases negative <;> decide +kernel
  · have hdigits : Spelling.Significant "17976931348623155".toList :=
      ⟨List.all_eq_true.mp rfl, '1', _, rfl, by decide⟩
    refine ⟨_, isDouble_scientific hdigits (e := 308) (by decide +kernel), ?_⟩
    cases negative <;> decide +kernel

/-- The text of every finite double is the text of some double. -/
theorem exists_spells (h : x.isFinite = true) : ∃ p, p.IsDouble ∧ Spells x p := by
  cases hzero : x.isZero with
  | true => exact ⟨_, isDouble_zero, spells_zero h hzero⟩
  | false =>
    by_cases hlarge : x.magnitudeBits + 2 < infinityBits
    · have hcount : 0 < (x.shortest .even).count :=
        Decimal.count_pos (reaches_shortest .even hzero).1
      obtain ⟨-, d, more, hdigits, -⟩ := Spelling.significant_decimal hcount
      have hreach := numerator_shortest_le .even hzero hlarge
      exact ⟨_, isDouble_spelling hdigits hcount hreach, spells_shortest h hzero hdigits⟩
    · rw [← ofMagnitude_magnitudeBits x]
      apply exists_spells_largest
      rw [isFinite_iff] at h
      omega

theorem Spelling.Valid.exists_digit {p : Spelling} (h : p.Valid) :
    ∃ c l, p.chars = c :: l ∧ c.isDigit = true := by
  rcases h.leading with hzero | ⟨c, l, hl, -⟩
  · exact ⟨'0', _, by rw [chars, hzero]; rfl, rfl⟩
  · exact ⟨c, _, by rw [chars, hl]; rfl, h.whole c (hl ▸ List.mem_cons_self)⟩

/-- Which double it is does not depend on what comes after. -/
theorem Spelling.IsDouble.readNumber {p : Spelling} (h : p.IsDouble) (negative : Bool) :
    ∃ y, ∀ t, Ends t → readNumber negative (octets p.chars ++ t) = .ok (.double y, t) := by
  obtain ⟨y, hy⟩ := Option.isSome_iff_exists.mp h.inRange
  have hparts : ¬ (p.literal.fraction = none ∧ p.literal.exponent = none) := by
    rintro ⟨hfraction, hexponent⟩
    rcases h.parts with hne | hne
    · exact hne (Option.map_eq_none_iff.mp hfraction)
    · exact hne (Option.map_eq_none_iff.mp hexponent)
  have hnumber : p.literal.number? negative = some (.double (y.withSign negative)) := by
    unfold Literal.number?
    dsimp only
    rw [if_neg fun hwhole => hparts ⟨hwhole.1, hwhole.2.1⟩, hy]
    rfl
  refine ⟨y.withSign negative, fun t ht => ?_⟩
  unfold Json.readNumber
  simp only [h.valid.read ht, hnumber, bind, Except.bind]

end Doubles

end DeviceLink.Json
