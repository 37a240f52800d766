import DeviceLink.Text.Utf8
import Mathlib.Tactic.SplitIfs

/-! UTF-8: what is written is read back, character by character. -/
namespace DeviceLink.Text

theorem toNat_ofNat {n : Nat} (h : n < 256) : (UInt8.ofNat n).toNat = n := by
  rw [UInt8.toNat_ofNat']
  exact Nat.mod_eq_of_lt h

theorem octet_eq {n : Nat} {b : UInt8} (h : n = b.toNat) : UInt8.ofNat n = b := by
  rw [h]
  exact UInt8.ofNat_toNat

/-- The bounds of a second octet, narrower after the lead octets at which overlong forms,
surrogates and numbers too large would begin. -/
theorem follows_eq_true {a b : UInt8} (ha : 194 ≤ a.toNat ∧ a.toNat ≤ 244)
    (hb : 128 ≤ b.toNat ∧ b.toNat ≤ 191) (hE0 : a.toNat = 224 → 160 ≤ b.toNat)
    (hED : a.toNat = 237 → b.toNat ≤ 159) (hF0 : a.toNat = 240 → 144 ≤ b.toNat)
    (hF4 : a.toNat = 244 → b.toNat ≤ 143) : follows a b = true := by
  unfold follows isTail
  simp only [UInt8.lt_iff_toNat_lt, UInt8.le_iff_toNat_le, ← UInt8.toNat_inj, UInt8.reduceToNat,
    Bool.or_eq_true, decide_eq_true_eq]
  rw [if_neg (by omega)]
  split_ifs <;> rw [Bool.and_eq_true, decide_eq_true_eq, decide_eq_true_eq] <;> omega

theorem unit_one {a : UInt8} (t : Octets) (ha : a.toNat < 128) :
    unit a t = (some (Char.ofNat a.toNat), 0) := by
  have hlead : a < 0x80 := UInt8.lt_iff_toNat_lt.mpr ha
  unfold unit
  rw [if_pos hlead]

theorem not_lt_of_le_toNat {a b : UInt8} (h : b.toNat ≤ a.toNat) : ¬ a < b := by
  rw [UInt8.lt_iff_toNat_lt]
  exact Nat.not_lt.mpr h

theorem unit_two {a b : UInt8} (t : Octets) (ha : 128 ≤ a.toNat ∧ a.toNat < 224)
    (hb : follows a b = true) :
    unit a (b :: t) = (some (Char.ofNat (a.toNat % 32 * 64 + tailBits b)), 1) := by
  have hlead : ¬ a < 0x80 := not_lt_of_le_toNat ha.1
  have hE0 : a < 0xE0 := UInt8.lt_iff_toNat_lt.mpr ha.2
  unfold unit
  simp only [if_neg hlead, hb, Bool.not_true, Bool.false_eq_true, if_false, if_pos hE0]

theorem unit_three {a b c : UInt8} (t : Octets) (ha : 224 ≤ a.toNat ∧ a.toNat < 240)
    (hb : follows a b = true) (hc : isTail c = true) :
    unit a (b :: c :: t) =
      (some (Char.ofNat ((a.toNat % 16 * 64 + tailBits b) * 64 + tailBits c)), 2) := by
  have hlead : ¬ a < 0x80 := not_lt_of_le_toNat (Nat.le_trans (by decide) ha.1)
  have hE0 : ¬ a < 0xE0 := not_lt_of_le_toNat ha.1
  have hF0 : a < 0xF0 := UInt8.lt_iff_toNat_lt.mpr ha.2
  unfold unit
  simp only [if_neg hlead, hb, hc, Bool.not_true, Bool.false_eq_true, if_false, if_neg hE0,
    if_pos hF0]

theorem unit_four {a b c d : UInt8} (t : Octets) (ha : 240 ≤ a.toNat) (hb : follows a b = true)
    (hc : isTail c = true) (hd : isTail d = true) :
    unit a (b :: c :: d :: t) = (some (Char.ofNat
      (((a.toNat % 8 * 64 + tailBits b) * 64 + tailBits c) * 64 + tailBits d)), 3) := by
  have hlead : ¬ a < 0x80 := not_lt_of_le_toNat (Nat.le_trans (by decide) ha)
  have hE0 : ¬ a < 0xE0 := not_lt_of_le_toNat (Nat.le_trans (by decide) ha)
  have hF0 : ¬ a < 0xF0 := not_lt_of_le_toNat ha
  unfold unit
  simp only [if_neg hlead, hb, hc, hd, Bool.not_true, Bool.false_eq_true, if_false, if_neg hE0,
    if_neg hF0]

theorem tail_ofNat (n : Nat) :
    (UInt8.ofNat (n % 64 + 128)).toNat = n % 64 + 128 ∧
      isTail (UInt8.ofNat (n % 64 + 128)) = true ∧
      tailBits (UInt8.ofNat (n % 64 + 128)) = n % 64 := by
  have h : (UInt8.ofNat (n % 64 + 128)).toNat = n % 64 + 128 := toNat_ofNat (by omega)
  refine ⟨h, ?_, ?_⟩
  · unfold isTail
    rw [Bool.and_eq_true, decide_eq_true_eq, decide_eq_true_eq, UInt8.le_iff_toNat_le,
      UInt8.le_iff_toNat_le, h]
    constructor
    · exact Nat.le_add_left 128 _
    · show n % 64 + 128 ≤ 191
      omega
  · unfold tailBits
    rw [h]
    omega

/-- No character is a surrogate or lies beyond U+10FFFF. -/
theorem toNat_bounds (c : Char) : c.toNat < 55296 ∨ 57343 < c.toNat ∧ c.toNat < 1114112 :=
  c.valid

theorem ofNat_eq_of_eq {c : Char} {n : Nat} (h : n = c.toNat) : Char.ofNat n = c := by
  rw [h]
  exact Char.ofNat_toNat c

/-- The octets of a character are one unit, whatever comes after them. -/
theorem unit_encode (c : Char) (t : Octets) : ∃ a u, String.utf8EncodeChar c = a :: u ∧
    unit a (u ++ t) = (some c, u.length) := by
  have hc := toNat_bounds c
  have hval : c.val.toNat = c.toNat := rfl
  obtain ⟨h₀, htail₀, hbits₀⟩ := tail_ofNat c.toNat
  obtain ⟨h₁, htail₁, hbits₁⟩ := tail_ofNat (c.toNat / 64)
  obtain ⟨h₂, htail₂, hbits₂⟩ := tail_ofNat (c.toNat / 4096)
  unfold String.utf8EncodeChar
  simp only [hval]
  split_ifs with hone htwo hthree
  · have ha : (UInt8.ofNat c.toNat).toNat = c.toNat := toNat_ofNat (by omega)
    refine ⟨_, [], rfl, ?_⟩
    rw [unit_one _ (by omega), ha, ofNat_eq_of_eq rfl]
    rfl
  · have ha : (UInt8.ofNat (c.toNat / 64 % 32 + 192)).toNat = c.toNat / 64 % 32 + 192 :=
      toNat_ofNat (by omega)
    refine ⟨_, _, rfl, ?_⟩
    rw [List.singleton_append, unit_two _ (by omega) (by apply follows_eq_true <;> omega), ha,
      hbits₀, ofNat_eq_of_eq (c := c) (by omega)]
    rfl
  · have ha : (UInt8.ofNat (c.toNat / 4096 % 16 + 224)).toNat = c.toNat / 4096 % 16 + 224 :=
      toNat_ofNat (by omega)
    refine ⟨_, _, rfl, ?_⟩
    rw [List.cons_append, List.singleton_append,
      unit_three _ (by omega) (by apply follows_eq_true <;> omega) htail₀, ha, hbits₀, hbits₁,
      ofNat_eq_of_eq (c := c) (by omega)]
    rfl
  · have ha : (UInt8.ofNat (c.toNat / 262144 % 8 + 240)).toNat = c.toNat / 262144 % 8 + 240 :=
      toNat_ofNat (by omega)
    refine ⟨_, _, rfl, ?_⟩
    rw [List.cons_append, List.cons_append, List.singleton_append,
      unit_four _ (by omega) (by apply follows_eq_true <;> omega) htail₁ htail₀, ha, hbits₀,
      hbits₁, hbits₂, ofNat_eq_of_eq (c := c) (by omega)]
    rfl

theorem scanFrom_append (u t : Octets) : scanFrom u.length (u ++ t) = scanFrom 0 t := by
  induction u with
  | nil => rfl
  | cons b u ih => exact ih

private theorem scanFrom_encodeChar (c : Char) (t : Octets) :
    scanFrom 0 (String.utf8EncodeChar c ++ t) = some c :: scanFrom 0 t := by
  obtain ⟨a, u, hc, hunit⟩ := unit_encode c t
  rw [hc, List.cons_append]
  show (unit a (u ++ t)).1 :: scanFrom (unit a (u ++ t)).2 (u ++ t) = _
  rw [hunit, scanFrom_append]

/-- Each character of a text is scanned as it was written. -/
theorem scan_flatMap (l : List Char) (t : Octets) :
    scanFrom 0 (l.flatMap String.utf8EncodeChar ++ t) = l.map some ++ scanFrom 0 t := by
  induction l with
  | nil => rfl
  | cons c l ih =>
    rw [List.flatMap_cons, List.append_assoc, scanFrom_encodeChar, ih]
    rfl

theorem mapM_id_map_some {α : Type} (l : List α) : (l.map some).mapM id = some l := by
  induction l with
  | nil => rfl
  | cons a l ih => simp [List.mapM_cons, ih]

theorem scan_encode (s : String) : scan (encode s) = s.toList.map some := by
  have h := scan_flatMap s.toList []
  rwa [List.append_nil, show scanFrom 0 [] = [] from rfl, List.append_nil] at h

/-- Text is read back from its octets. -/
@[simp] theorem decode?_encode (s : String) : decode? (encode s) = some s := by
  rw [decode?, scan_encode, mapM_id_map_some, Option.map_some, String.ofList_toList]

/-- Where nothing has to be replaced, reading with a replacement is reading. -/
theorem decodeLossy_encode (s : String) : decodeLossy (encode s) = s := by
  have hsome : (fun c : Option Char => c.getD '\uFFFD') ∘ some = id := rfl
  rw [decodeLossy, scan_encode, List.map_map, hsome, List.map_id, String.ofList_toList]

def octets (l : List Char) : Octets := l.flatMap String.utf8EncodeChar

@[simp] theorem octets_nil : octets [] = [] := rfl

@[simp] theorem octets_cons (c : Char) (l : List Char) :
    octets (c :: l) = String.utf8EncodeChar c ++ octets l := rfl

@[simp] theorem octets_append (l l' : List Char) : octets (l ++ l') = octets l ++ octets l' :=
  List.flatMap_append

theorem encode_ofList (l : List Char) : encode (String.ofList l) = octets l := by
  rw [encode, String.toList_ofList]
  rfl

theorem encodeChar_of_lt {c : Char} (h : c.toNat < 128) :
    String.utf8EncodeChar c = [UInt8.ofNat c.toNat] := by
  have hval : c.val.toNat = c.toNat := rfl
  unfold String.utf8EncodeChar
  simp only [hval]
  rw [if_pos (by omega)]

theorem le_toNat_ofNat {n m k : Nat} (hm : 0 < m) (hk : 128 ≤ k) (hmk : m + k ≤ 256) :
    128 ≤ (UInt8.ofNat (n % m + k)).toNat := by
  have hlt : n % m < m := Nat.mod_lt n hm
  rw [toNat_ofNat (by omega)]
  omega

/-- Beyond ASCII no octet of a character is an ASCII octet. -/
theorem le_of_mem_encodeChar {c : Char} (h : 128 ≤ c.toNat) {b : UInt8}
    (hb : b ∈ String.utf8EncodeChar c) : 128 ≤ b.toNat := by
  have hval : c.val.toNat = c.toNat := rfl
  unfold String.utf8EncodeChar at hb
  simp only [hval] at hb
  rw [if_neg (by omega)] at hb
  split_ifs at hb with htwo hthree
  · simp only [List.mem_cons, List.not_mem_nil, or_false] at hb
    rcases hb with rfl | rfl <;> apply le_toNat_ofNat <;> decide
  · simp only [List.mem_cons, List.not_mem_nil, or_false] at hb
    rcases hb with rfl | rfl | rfl <;> apply le_toNat_ofNat <;> decide
  · simp only [List.mem_cons, List.not_mem_nil, or_false] at hb
    rcases hb with rfl | rfl | rfl | rfl <;> apply le_toNat_ofNat <;> decide

end DeviceLink.Text
