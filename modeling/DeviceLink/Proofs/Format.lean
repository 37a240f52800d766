import DeviceLink.Proofs.Double.Numeral
import DeviceLink.Proofs.Text.Numeral
import DeviceLink.Reading
import Mathlib.Computability.RegularExpressions

/-! Formats of values: a text must match a regular expression before it is parsed, by a parser that
accepts other texts too. Each format accepts the texts, with the values, that `Value` reads. -/
namespace DeviceLink

/-- A reading of texts in two steps. -/
structure Format (α : Type) where
  pattern : RegularExpression Char
  parse : List Char → Option α

namespace Format

open Text

def accepts {α : Type} (f : Format α) (s : List Char) : Bool :=
  f.pattern.rmatch s && (f.parse s).isSome

def read? {α : Type} (f : Format α) (s : List Char) : Option α :=
  if f.accepts s then f.parse s else none

/-- The characters that regular expressions take for digits: among those of ASCII the ten digits,
and beyond ASCII any others. -/
structure DigitClass where
  chars : List Char
  ascii : ∀ c : Char, c.toNat < 128 → (c ∈ chars ↔ c.isDigit = true)

def oneOf (l : List Char) : RegularExpression Char := (l.map .char).sum

def optional (r : RegularExpression Char) : RegularExpression Char := r + 1

def repeated (r : RegularExpression Char) : RegularExpression Char := r * r.star

def signs : RegularExpression Char := oneOf ['-', '+']

def isBoolean (v : String) : Bool := v = "true" || v = "false"

def parseBool? (v : String) : Option Bool :=
  if v = "true" then some true else if v = "false" then some false else none

def bool? (v : String) : Option Bool := (parseBool? v).filter fun _ => isBoolean v

section Digits

variable (d : DigitClass)

/-- Digits, parsed as an unsigned number that may have a plus sign. -/
def uint : Format Nat := ⟨repeated (oneOf d.chars), natural? limit64⟩

/-- A signed number of 64 bits; a plus sign may stand before it. -/
def parseInt? : List Char → Option Int
  | '-' :: s => ((digits? s).filter (· ≤ limit63)).map fun n => -(n : Int)
  | '+' :: s => ((digits? s).filter (· < limit63)).map fun n => (n : Int)
  | s => ((digits? s).filter (· < limit63)).map fun n => (n : Int)

/-- Digits, perhaps with a minus sign, parsed as a signed number. -/
def int : Format Int := ⟨optional (.char '-') * repeated (oneOf d.chars), parseInt?⟩

/-- Infinity and the undefined number by their names, in letters of any case. -/
def special? (s : List Char) : Option Double :=
  let (negative, name) := Double.signed s
  let name := String.ofList (name.map Char.toLower)
  if name = "inf" ∨ name = "infinity" then some (.withSign negative .infinity)
  else if name = "nan" then some (.withSign negative .undefinedValue)
  else none

/-- Digits with a point among or behind them, which may be missing, or before them. -/
def mantissa : RegularExpression Char :=
  repeated (oneOf d.chars) * optional (.char '.') * (oneOf d.chars).star +
    .char '.' * repeated (oneOf d.chars)

def exponent : RegularExpression Char :=
  oneOf ['e', 'E'] * optional signs * repeated (oneOf d.chars)

/-- A decimal; besides those, infinity and the undefined number could be parsed. -/
def double : Format Double where
  pattern := optional signs * mantissa d * optional (exponent d)
  parse s := (Double.read? s).or (special? s)

def kind (v : String) : ValueKind :=
  if isBoolean v then .boolean
  else if (uint d).accepts v.toList then .uint
  else if (int d).accepts v.toList then .int
  else if (double d).accepts v.toList then .double
  else .string

/-- Two decimals with a comma between them, white space around them aside. -/
def location? (v : String) : Option Location :=
  let s := v.toList
  match s.dropWhile (· != ',') with
  | [] => none
  | _ :: rest =>
    let latitude := trim (s.takeWhile (· != ','))
    let longitude := trim rest
    if !(double d).accepts latitude || !(double d).accepts longitude then none
    else do
      let latitude ← (double d).parse latitude
      let longitude ← (double d).parse longitude
      some ⟨latitude, longitude⟩

end Digits

def hexPattern : RegularExpression Char := repeated (oneOf "0123456789abcdefABCDEF".toList)

/-- An unsigned number of 64 bits in base 16; a plus sign may stand before it. -/
def parseHex? : List Char → Option Nat
  | '+' :: s => below? limit64 (hexDigits? s)
  | s => below? limit64 (hexDigits? s)

def isHex (s : List Char) : Bool := hexPattern.rmatch s

def hex? (s : List Char) : Option Nat := if isHex s then parseHex? s else none

section Languages

variable {l s : List Char} {r r' : RegularExpression Char}

theorem mem_mul : s ∈ (r * r').matches' ↔ ∃ a ∈ r.matches', ∃ b ∈ r'.matches', a ++ b = s := by
  rw [RegularExpression.matches'_mul, Language.mem_mul]

theorem mem_add : s ∈ (r + r').matches' ↔ s ∈ r.matches' ∨ s ∈ r'.matches' := by
  rw [RegularExpression.matches'_add, Language.mem_add]

theorem mem_char {c : Char} : s ∈ (RegularExpression.char c).matches' ↔ s = [c] := by
  rw [RegularExpression.matches'_char]
  exact Set.mem_singleton_iff

theorem mem_oneOf : s ∈ (oneOf l).matches' ↔ ∃ c ∈ l, s = [c] := by
  unfold oneOf
  induction l with
  | nil => simp
  | cons c l ih =>
    rw [List.map_cons, List.sum_cons, mem_add, ih, mem_char, List.exists_mem_cons_iff]

theorem mem_star_oneOf : s ∈ (oneOf l).star.matches' ↔ ∀ c ∈ s, c ∈ l := by
  rw [RegularExpression.matches'_star, Language.mem_kstar]
  constructor
  · intro h
    obtain ⟨parts, rfl, hparts⟩ := h
    intro c hc
    obtain ⟨part, hpart, hc⟩ := List.mem_flatten.mp hc
    obtain ⟨x, hx, rfl⟩ := mem_oneOf.mp (hparts part hpart)
    rw [List.mem_singleton.mp hc]
    exact hx
  · intro h
    refine ⟨s.map fun c => [c], (List.flatMap_singleton' s).symm, ?_⟩
    intro part hpart
    obtain ⟨c, hc, rfl⟩ := List.mem_map.mp hpart
    exact mem_oneOf.mpr ⟨c, h c hc, rfl⟩

theorem mem_repeated_oneOf : s ∈ (repeated (oneOf l)).matches' ↔ s ≠ [] ∧ ∀ c ∈ s, c ∈ l := by
  rw [repeated, mem_mul]
  constructor
  · intro h
    obtain ⟨a, ha, b, hb, rfl⟩ := h
    obtain ⟨c, hc, rfl⟩ := mem_oneOf.mp ha
    have hrest := mem_star_oneOf.mp hb
    exact ⟨by simp, by simpa [hc] using hrest⟩
  · intro h
    obtain ⟨hne, hall⟩ := h
    obtain ⟨c, t, rfl⟩ := List.exists_cons_of_ne_nil hne
    have hc : c ∈ l := hall c List.mem_cons_self
    have ht : ∀ x ∈ t, x ∈ l := fun x hx => hall x (List.mem_cons_of_mem c hx)
    exact ⟨[c], mem_oneOf.mpr ⟨c, hc, rfl⟩, t, mem_star_oneOf.mpr ht, rfl⟩

theorem mem_optional : s ∈ (optional r).matches' ↔ s ∈ r.matches' ∨ s = [] := by
  rw [optional, mem_add, RegularExpression.matches'_epsilon, Language.mem_one]

theorem mem_optional_signs : s ∈ (optional signs).matches' ↔ Double.IsSign s := by
  rw [mem_optional, signs, mem_oneOf]
  unfold Double.IsSign
  simp only [List.mem_cons, List.not_mem_nil, or_false, exists_eq_or_imp, exists_eq_left]
  tauto

end Languages

/-- A format reads exactly what another reader reads if this is so of what it matches and parses. -/
theorem reads_alike {α : Type} {f : Format α} {read : List Char → Option α}
    (h : ∀ s x, s ∈ f.pattern.matches' ∧ f.parse s = some x ↔ read s = some x) (s : List Char) :
    f.accepts s = (read s).isSome ∧ f.read? s = read s := by
  have haccepts : f.accepts s = true ↔ s ∈ f.pattern.matches' ∧ (f.parse s).isSome = true := by
    rw [accepts, Bool.and_eq_true, RegularExpression.rmatch_iff_matches']
  have hsome : f.accepts s = (read s).isSome := by
    rw [Bool.eq_iff_iff, haccepts, Option.isSome_iff_exists, Option.isSome_iff_exists]
    simp only [← h, exists_and_left]
  refine ⟨hsome, ?_⟩
  apply Option.ext
  intro x
  rw [Format.read?, Option.ite_none_right_eq_some, haccepts, ← h]
  constructor
  · intro hread
    exact ⟨hread.1.1, hread.2⟩
  · intro hread
    exact ⟨⟨hread.1, by simp [hread.2]⟩, hread.2⟩

section Agreement

variable (d : DigitClass)

theorem DigitClass.mem_of_isDigit {c : Char} (h : c.isDigit = true) : c ∈ d.chars :=
  (d.ascii c (isDigit_lt h)).mpr h

theorem DigitClass.notMem {c : Char} (hlt : c.toNat < 128) (h : c.isDigit = false) :
    c ∉ d.chars := by
  intro hmem
  rw [(d.ascii c hlt).mp hmem] at h
  cases h

section Digits

variable {s : List Char}

theorem mem_of_isDigits (h : Double.IsDigits s) : s ∈ (repeated (oneOf d.chars)).matches' :=
  mem_repeated_oneOf.mpr ⟨h.1, fun c hc => d.mem_of_isDigit (h.2 c hc)⟩

/-- Where digits are read, they match: to ask for a match first makes no difference. -/
theorem matches_and_iff {p : Option Nat → Prop} (hnone : ¬ p none) :
    s ∈ (repeated (oneOf d.chars)).matches' ∧ p (digits? s) ↔ p (digits? s) := by
  rw [and_iff_right_iff_imp]
  intro h
  cases hdigits : digits? s with
  | none =>
    rw [hdigits] at h
    exact absurd h hnone
  | some n =>
    obtain ⟨hne, hall, -⟩ := digits?_eq_some.mp hdigits
    exact mem_of_isDigits d ⟨hne, hall⟩

theorem not_matches_sign {c : Char} (hlt : c.toNat < 128) (h : c.isDigit = false) :
    c :: s ∉ (repeated (oneOf d.chars)).matches' := by
  intro hmem
  exact d.notMem hlt h ((mem_repeated_oneOf.mp hmem).2 c List.mem_cons_self)

end Digits

theorem uint_agrees (s : List Char) (n : Nat) :
    s ∈ (uint d).pattern.matches' ∧ (uint d).parse s = some n ↔
      below? limit64 (digits? s) = some n := by
  unfold uint natural?
  dsimp only
  split
  · rename_i s
    rw [digits?_cons_eq_none (by decide)]
    exact iff_of_false (fun h => not_matches_sign d (by decide) (by decide) h.1) nofun
  · exact matches_and_iff d (p := fun o => below? limit64 o = some n) nofun

private theorem mem_int {s : List Char} : s ∈ (int d).pattern.matches' ↔
    (∃ t, s = '-' :: t ∧ t ∈ (repeated (oneOf d.chars)).matches') ∨
      s ∈ (repeated (oneOf d.chars)).matches' := by
  unfold int
  dsimp only
  rw [mem_mul]
  constructor
  · intro h
    obtain ⟨sign, hsign, t, ht, rfl⟩ := h
    rw [mem_optional, mem_char] at hsign
    rcases hsign with rfl | rfl
    · exact Or.inl ⟨t, rfl, ht⟩
    · exact Or.inr ht
  · intro h
    rcases h with ⟨t, rfl, ht⟩ | hs
    · exact ⟨['-'], mem_optional.mpr (Or.inl rfl), t, ht, rfl⟩
    · exact ⟨[], mem_optional.mpr (Or.inr rfl), s, hs, rfl⟩

theorem int_agrees (s : List Char) (i : Int) :
    s ∈ (int d).pattern.matches' ∧ (int d).parse s = some i ↔
      Value.int? (String.ofList s) = some i := by
  rw [mem_int]
  unfold int parseInt? Value.int?
  rw [String.toList_ofList]
  dsimp only
  split
  · rename_i t
    have hsign : '-' :: t ∉ (repeated (oneOf d.chars)).matches' :=
      not_matches_sign d (by decide) (by decide)
    simp only [List.cons.injEq, true_and, exists_eq_left', hsign, or_false]
    exact matches_and_iff d (p := fun o => (do
      let n ← o.filter (· ≤ limit63)
      pure (n : Int)).map (- ·) = some i) (by simp)
  · rename_i t
    have hsign : '+' :: t ∉ (repeated (oneOf d.chars)).matches' :=
      not_matches_sign d (by decide) (by decide)
    have hdigits : digits? ('+' :: t) = none := digits?_cons_eq_none (by decide) t
    simp [hsign, hdigits]
  · rename_i hminus hplus
    have hminus' : ¬ ∃ t, s = '-' :: t ∧ t ∈ (repeated (oneOf d.chars)).matches' := by
      intro h
      obtain ⟨t, ht, -⟩ := h
      exact hminus t ht
    simp only [hminus', false_or]
    exact matches_and_iff d (p := fun o => (do
      let n ← o.filter (· < limit63)
      pure (n : Int)).map id = some i) (by simp)

theorem mem_mantissa {m : List Char} (h : Double.IsMantissa m) : m ∈ (mantissa d).matches' := by
  rw [mantissa, mem_add]
  cases h with
  | whole hm =>
    refine Or.inl ⟨m, ⟨m, mem_of_isDigits d hm, [], ?_, List.append_nil m⟩, [], ?_,
      List.append_nil m⟩
    · exact mem_optional.mpr (Or.inr rfl)
    · exact mem_star_oneOf.mpr (by simp)
  | @pointed w f hw hf =>
    refine Or.inl ⟨w ++ ['.'], ⟨w, mem_of_isDigits d hw, ['.'], ?_, rfl⟩, f, ?_, by simp⟩
    · exact mem_optional.mpr (Or.inl rfl)
    · exact mem_star_oneOf.mpr fun c hc => d.mem_of_isDigit (hf c hc)
  | @fraction f hf =>
    exact Or.inr (mem_mul.mpr ⟨['.'], mem_char.mpr rfl, f, mem_of_isDigits d hf, rfl⟩)

private theorem mem_exponent {e : List Char} (h : Double.IsExponent e) :
    e ∈ (optional (exponent d)).matches' := by
  rw [mem_optional]
  cases h with
  | none => exact Or.inr rfl
  | @marked c sign digits hc hsign hdigits =>
    have hletter : [c] ∈ (oneOf ['e', 'E']).matches' := mem_oneOf.mpr ⟨c, by simpa using hc, rfl⟩
    exact Or.inl ⟨c :: sign, ⟨[c], hletter, sign, mem_optional_signs.mpr hsign, rfl⟩, digits,
      mem_of_isDigits d hdigits, rfl⟩

theorem matches_of_isDecimal {s : List Char} (h : Double.IsDecimal s) :
    s ∈ (double d).pattern.matches' := by
  obtain ⟨sign, m, e, hsign, hm, he, rfl⟩ := h
  exact ⟨sign ++ m, ⟨sign, mem_optional_signs.mpr hsign, m, mem_mantissa d hm, rfl⟩, e,
    mem_exponent d he, rfl⟩

theorem exists_head {s : List Char} (h : s ∈ (double d).pattern.matches') :
    ∃ sign c t, Double.IsSign sign ∧ (c ∈ d.chars ∨ c = '.') ∧ s = sign ++ c :: t := by
  obtain ⟨_, hsigned, e, -, rfl⟩ := mem_mul.mp h
  obtain ⟨sign, hsign, m, hm, rfl⟩ := mem_mul.mp hsigned
  have hhead : ∃ c t, (c ∈ d.chars ∨ c = '.') ∧ m = c :: t := by
    rcases mem_add.mp hm with hm | hm
    · obtain ⟨_, hpointed, f, -, rfl⟩ := mem_mul.mp hm
      obtain ⟨w, hw, p, -, rfl⟩ := mem_mul.mp hpointed
      obtain ⟨hne, hall⟩ := mem_repeated_oneOf.mp hw
      obtain ⟨c, t, rfl⟩ := List.exists_cons_of_ne_nil hne
      exact ⟨c, t ++ p ++ f, Or.inl (hall c List.mem_cons_self), rfl⟩
    · obtain ⟨p, hp, f, -, rfl⟩ := mem_mul.mp hm
      obtain rfl := mem_char.mp hp
      exact ⟨'.', f, Or.inr rfl, rfl⟩
  obtain ⟨c, t, hc, rfl⟩ := hhead
  exact ⟨sign, c, t ++ e, mem_optional_signs.mp hsign, hc, by simp⟩

/-- No ASCII character but the digits and the point stands there. -/
theorem not_head {c : Char} (hlt : c.toNat < 128) (hdigit : c.isDigit = false) (hpoint : c ≠ '.') :
    ¬ (c ∈ d.chars ∨ c = '.') := by
  simp [d.notMem hlt hdigit, hpoint]

/-- A letter is a character of ASCII and no digit. -/
theorem not_head_of_isAlpha {c : Char} (h : c.isAlpha = true) : ¬ (c ∈ d.chars ∨ c = '.') := by
  have hlt : c.toNat < 128 := by
    have hcases : (decide ('A'.val ≤ c.val ∧ c.val ≤ 'Z'.val) ||
        ('a'.val ≤ c.val && c.val ≤ 'z'.val)) = true := h
    simp only [Bool.or_eq_true, Bool.and_eq_true, decide_eq_true_eq,
      UInt32.le_iff_toNat_le] at hcases
    have hcode : c.toNat = c.val.toNat := rfl
    have hlarge : 'Z'.val.toNat = 90 := rfl
    have hsmall : 'z'.val.toNat = 122 := rfl
    omega
  have hc : c.isDigit = false ∧ c ≠ '.' :=
    forall_ascii (p := fun c => c.isAlpha = true → c.isDigit = false ∧ c ≠ '.')
      (by decide +kernel) hlt h
  exact not_head d hlt hc.1 hc.2

private theorem isAlpha_of_isLower_toLower {c : Char} (h : c.toLower.isLower = true) :
    c.isAlpha = true := by
  show (c.isUpper || c.isLower) = true
  by_cases hupper : c.isUpper = true
  · rw [hupper, Bool.true_or]
  · have hrange : ¬ ('A'.val ≤ c.val ∧ c.val ≤ 'Z'.val) :=
      fun hrange => hupper (decide_eq_true hrange)
    have hsame : c.toLower = c := dif_neg hrange
    rw [hsame] at h
    rw [h, Bool.or_true]

theorem isAlpha_of_lower {c : Char} {t : List Char} {name : String} {x : Char} {r : List Char}
    (hname : name.toList = x :: r) (hx : x.isLower = true)
    (h : String.ofList ((c :: t).map Char.toLower) = name) : c.isAlpha = true := by
  have hlist : c.toLower :: t.map Char.toLower = x :: r := by
    rw [← hname, ← h, String.toList_ofList, List.map_cons]
  apply isAlpha_of_isLower_toLower
  rw [(List.cons.inj hlist).1]
  exact hx

/-- Nothing that matches is a name: its letters would stand where a digit or the point stands. -/
theorem special?_eq_none {s : List Char} (h : s ∈ (double d).pattern.matches') :
    special? s = none := by
  obtain ⟨sign, c, t, hsign, hc, rfl⟩ := exists_head d h
  have hstart : ∀ x r, c :: t = x :: r → x ≠ '-' ∧ x ≠ '+' := by
    intro x r hx
    obtain rfl := (List.cons.inj hx).1
    constructor
    · rintro rfl
      exact not_head d (by decide) (by decide) (by decide) hc
    · rintro rfl
      exact not_head d (by decide) (by decide) (by decide) hc
  have hletter : ¬ c.isAlpha = true := fun h => not_head_of_isAlpha d h hc
  unfold special?
  dsimp only
  rw [Double.signed_append hsign hstart, if_neg, if_neg]
  · exact fun h => hletter (isAlpha_of_lower rfl (by decide) h)
  · intro h
    rcases h with h | h
    · exact hletter (isAlpha_of_lower rfl (by decide) h)
    · exact hletter (isAlpha_of_lower rfl (by decide) h)

theorem double_agrees (s : List Char) (x : Double) :
    s ∈ (double d).pattern.matches' ∧ (double d).parse s = some x ↔ Double.read? s = some x := by
  have hparse : (double d).parse s = (Double.read? s).or (special? s) := rfl
  rw [hparse]
  constructor
  · intro h
    obtain ⟨hmem, hparse⟩ := h
    rwa [special?_eq_none d hmem, Option.or_none] at hparse
  · intro h
    have hdecimal : Double.IsDecimal s := Double.isSome_read?_iff.mp (by simp [h])
    exact ⟨matches_of_isDecimal d hdecimal, by simp [h]⟩

end Agreement

section Values

variable (d : DigitClass) (v : String)

theorem bool?_eq : isBoolean v = (Value.bool? v).isSome ∧ bool? v = Value.bool? v := by
  unfold bool? parseBool? isBoolean Value.bool?
  by_cases htrue : v = "true"
  · simp [htrue]
  · by_cases hfalse : v = "false"
    · simp [hfalse]
    · simp [htrue, hfalse]

theorem uint_eq : (uint d).accepts v.toList = (Value.uint? v).isSome ∧
    (uint d).read? v.toList = Value.uint? v :=
  reads_alike (uint_agrees d) v.toList

def DigitClass.arabic : DigitClass where
  chars := "0123456789٠١٢٣٤٥٦٧٨٩".toList
  ascii _ hlt := forall_ascii
    (p := fun c => c ∈ "0123456789٠١٢٣٤٥٦٧٨٩".toList ↔ c.isDigit = true) (by decide +kernel) hlt

example : (uint .arabic).pattern.rmatch "٣".toList = true ∧
    (uint .arabic).read? "٣".toList = none := by
  decide

theorem int_eq : (int d).accepts v.toList = (Value.int? v).isSome ∧
    (int d).read? v.toList = Value.int? v := by
  have h := reads_alike (int_agrees d) v.toList
  rwa [String.ofList_toList] at h

theorem double_eq (s : List Char) : (double d).accepts s = (Double.read? s).isSome ∧
    (double d).read? s = Double.read? s :=
  reads_alike (double_agrees d) s

theorem mem_hexPattern {s : List Char} :
    s ∈ hexPattern.matches' ↔ (hexDigits? s).isSome = true := by
  have htable : "0123456789abcdefABCDEF".toList.all isHexDigit = true := by decide
  have hmem : ∀ c : Char, c ∈ "0123456789abcdefABCDEF".toList ↔ isHexDigit c = true := by
    intro c
    refine ⟨List.all_eq_true.mp htable c, fun h => ?_⟩
    exact forall_ascii
      (p := fun c => isHexDigit c = true → c ∈ "0123456789abcdefABCDEF".toList)
      (by decide +kernel) (isHexDigit_lt h) h
  have hsome : (hexDigits? s).isSome = true ↔ s ≠ [] ∧ ∀ c ∈ s, isHexDigit c = true := by
    unfold hexDigits?
    rw [Option.isSome_ite, List.all_eq_true]
  rw [hexPattern, mem_repeated_oneOf, hsome]
  simp only [hmem]

theorem hex?_eq : isHex v.toList = Value.isHex v ∧ hex? v.toList = Value.hex? v := by
  have hisHex : isHex v.toList = (hexDigits? v.toList).isSome := by
    rw [Bool.eq_iff_iff, isHex, RegularExpression.rmatch_iff_matches', mem_hexPattern]
  refine ⟨hisHex, ?_⟩
  unfold hex? Value.hex?
  rw [hisHex]
  by_cases hsome : (hexDigits? v.toList).isSome = true
  · rw [if_pos hsome]
    unfold parseHex?
    split
    · rename_i s hplus
      have hall := (mem_repeated_oneOf.mp (mem_hexPattern.mpr hsome)).2
      rw [hplus] at hall
      exact absurd (hall '+' List.mem_cons_self) (by decide)
    · rfl
  · rw [if_neg hsome, Option.not_isSome_iff_eq_none.mp hsome]
    rfl

theorem kind_eq : kind d v = Value.kind v := by
  unfold kind Value.kind
  rw [(bool?_eq v).1, (uint_eq d v).1, (int_eq d v).1, (double_eq d v.toList).1]
  rfl

theorem parse_double {s : List Char} (h : (double d).accepts s = true) :
    (double d).parse s = Double.read? s := by
  have hread := (double_eq d s).2
  rwa [Format.read?, if_pos h] at hread

theorem location?_eq : location? d v = Location.ofText? v := by
  unfold location? Location.ofText?
  dsimp only
  cases v.toList.dropWhile (· != ',') with
  | nil => rfl
  | cons _ rest =>
    dsimp only
    generalize trim (v.toList.takeWhile (· != ',')) = latitude
    generalize trim rest = longitude
    have hlatitude := (double_eq d latitude).1
    have hlongitude := (double_eq d longitude).1
    cases hx : Double.read? latitude with
    | none => simp [hlatitude, hx]
    | some x =>
      have hparsed := parse_double d (hlatitude.trans (by rw [hx]; rfl))
      cases hy : Double.read? longitude with
      | none => simp [hlongitude, hy]
      | some y =>
        have hparsed' := parse_double d (hlongitude.trans (by rw [hy]; rfl))
        simp [hlatitude, hlongitude, hparsed, hparsed', hx, hy]

end Values

end Format
end DeviceLink
