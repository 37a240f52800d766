import DeviceLink.Proofs.Ascending
import DeviceLink.Proofs.Json.Double
import Mathlib.Data.String.Basic

/-! Values that their own text is read back to. -/
namespace DeviceLink.Json

open Text

/-- Values in which at most `room` containers are nested, and whose numbers are whole numbers of
64 bits or the double that minus zero is read as. -/
inductive Whole : Nat → Json → Prop
  | null {room : Nat} : Whole room .null
  | bool {room : Nat} (b : Bool) : Whole room (.bool b)
  | integer {room : Nat} {n : Int} : -limit63 ≤ n → n < limit64 → Whole room (.number (.integer n))
  | minusZero {room : Nat} : Whole room (.number (.double (.withSign true .zero)))
  | string {room : Nat} (s : String) : Whole room (.string s)
  | array {room : Nat} {items : List Json} :
    (∀ v ∈ items, Whole room v) → Whole (room + 1) (.array items)
  | object {room : Nat} {members : List (String × Json)} :
    (∀ m ∈ members, Whole room m.2) → Whole (room + 1) (.object members)

theorem Whole.mono {room room' : Nat} {v : Json} (h : Whole room v) (hle : room ≤ room') :
    Whole room' v := by
  induction h generalizing room' with
  | null => exact .null
  | bool b => exact .bool b
  | integer hlo hhi => exact .integer hlo hhi
  | minusZero => exact .minusZero
  | string s => exact .string s
  | array hitems ih =>
    obtain ⟨n, rfl⟩ := Nat.exists_eq_add_one_of_ne_zero (Nat.ne_of_gt (Nat.zero_lt_of_lt hle))
    exact .array fun v hv => ih v hv (Nat.le_of_succ_le_succ hle)
  | object hmembers ih =>
    obtain ⟨n, rfl⟩ := Nat.exists_eq_add_one_of_ne_zero (Nat.ne_of_gt (Nat.zero_lt_of_lt hle))
    exact .object fun m hm => ih m hm (Nat.le_of_succ_le_succ hle)

theorem whole_ofNat (n : UInt64) (room : Nat) : Whole room (.ofNat n.toNat) := by
  have hlt : n.toNat < limit64 := n.toNat_lt
  apply Whole.integer
  · unfold limit63
    omega
  · exact Int.ofNat_lt.mpr hlt

/-- Values in which at most `room` containers are nested, and whose numbers are whole numbers of
64 bits or finite doubles. -/
inductive Legible : Nat → Json → Prop
  | null {room : Nat} : Legible room .null
  | bool {room : Nat} (b : Bool) : Legible room (.bool b)
  | integer {room : Nat} {n : Int} :
    -limit63 ≤ n → n < limit64 → Legible room (.number (.integer n))
  | double {room : Nat} {x : Double} : x.isFinite = true → Legible room (.number (.double x))
  | string {room : Nat} (s : String) : Legible room (.string s)
  | array {room : Nat} {items : List Json} :
    (∀ v ∈ items, Legible room v) → Legible (room + 1) (.array items)
  | object {room : Nat} {members : List (String × Json)} :
    (∀ m ∈ members, Legible room m.2) → Legible (room + 1) (.object members)

/-- Scalars: truth values, whole numbers of 64 bits, finite doubles and strings. -/
inductive IsScalar : Json → Prop
  | bool (b : Bool) : IsScalar (.bool b)
  | integer {n : Int} : -limit63 ≤ n → n < limit64 → IsScalar (.number (.integer n))
  | double {x : Double} : x.isFinite = true → IsScalar (.number (.double x))
  | string (s : String) : IsScalar (.string s)

theorem IsScalar.legible {v : Json} (h : IsScalar v) (room : Nat) : Legible room v := by
  cases h with
  | bool b => exact .bool b
  | integer hlo hhi => exact .integer hlo hhi
  | double hfinite => exact .double hfinite
  | string s => exact .string s

theorem Whole.legible {room : Nat} {v : Json} (h : Whole room v) : Legible room v := by
  induction h with
  | null => exact .null
  | bool b => exact .bool b
  | integer hlo hhi => exact .integer hlo hhi
  | minusZero => exact .double (by decide)
  | string s => exact .string s
  | array hitems ih => exact .array ih
  | object hmembers ih => exact .object ih

/-- Values in which the names of every object strictly ascend. -/
inductive Ordered : Json → Prop
  | null : Ordered .null
  | bool (b : Bool) : Ordered (.bool b)
  | number (n : Number) : Ordered (.number n)
  | string (s : String) : Ordered (.string s)
  | array {items : List Json} : (∀ v ∈ items, Ordered v) → Ordered (.array items)
  | object {members : List (String × Json)} :
    Ascending.Sorted members → (∀ m ∈ members, Ordered m.2) → Ordered (.object members)

mutual

/-- The value with the names of every object in ascending order; of members with equal names the
last one counts. -/
def arranged : Json → Json
  | .null => .null
  | .bool b => .bool b
  | .number n => .number n
  | .string s => .string s
  | .array items => .array (arrangedItems items)
  | .object members => .object (Ascending.ofList (arrangedMembers members))

def arrangedItems : List Json → List Json
  | [] => []
  | v :: rest => arranged v :: arrangedItems rest

def arrangedMembers : List (String × Json) → List (String × Json)
  | [] => []
  | (name, v) :: rest => (name, arranged v) :: arrangedMembers rest

end

theorem arrangedItems_eq_map (items : List Json) : arrangedItems items = items.map arranged := by
  induction items with
  | nil => rfl
  | cons v rest ih => rw [arrangedItems, ih, List.map_cons]

theorem arrangedMembers_eq_map (members : List (String × Json)) :
    arrangedMembers members = members.map fun m => (m.1, arranged m.2) := by
  induction members with
  | nil => rfl
  | cons m rest ih => rw [arrangedMembers, ih, List.map_cons]

theorem arranged_array (items : List Json) :
    arranged (.array items) = .array (items.map arranged) := by
  rw [arranged, arrangedItems_eq_map]

theorem arranged_object (members : List (String × Json)) :
    arranged (.object members) =
      .object (Ascending.ofList (members.map fun m => (m.1, arranged m.2))) := by
  rw [arranged, arrangedMembers_eq_map]

theorem Ordered.arranged_eq {v : Json} (h : Ordered v) : v.arranged = v := by
  induction h with
  | null => rfl
  | bool b => rfl
  | number n => rfl
  | string s => rfl
  | @array items hitems ih =>
    have hmap : items.map arranged = items := by
      conv_rhs => rw [← List.map_id items]
      exact List.map_congr_left ih
    rw [arranged_array, hmap]
  | @object members hsorted hmembers ih =>
    have hmap : (members.map fun m => (m.1, arranged m.2)) = members := by
      conv_rhs => rw [← List.map_id members]
      exact List.map_congr_left fun m hm => Prod.ext rfl (ih m hm)
    rw [arranged_object, hmap, hsorted.ofList_eq]

theorem Whole.arranged {room : Nat} {v : Json} (h : Whole room v) : Whole room v.arranged := by
  induction h with
  | null => exact .null
  | bool b => exact .bool b
  | integer hlo hhi => exact .integer hlo hhi
  | minusZero => exact .minusZero
  | string s => exact .string s
  | array hitems ih =>
    rw [arranged_array]
    apply Whole.array
    intro v hv
    obtain ⟨v, hmem, rfl⟩ := List.mem_map.mp hv
    exact ih v hmem
  | object hmembers ih =>
    rw [arranged_object]
    apply Whole.object
    intro m hm
    obtain ⟨m, hmem, rfl⟩ := List.mem_map.mp (Ascending.mem_ofList hm)
    exact ih m hmem

section Scalars

theorem readScalar_literal (s : String) (t : Octets) :
    readScalar (octets (literal s) ++ t) = .ok (.string s, t) := by
  rw [octets_literal, List.cons_append, List.append_assoc, List.singleton_append]
  show (readString _).bind (fun r => .ok (Json.string r.1, r.2)) = _
  rw [readString_literal]
  rfl

theorem readScalar_digit {b : UInt8} (h : isDigit b = true) (s : Octets) :
    readScalar (b :: s) = (readNumber false (b :: s)).map fun r => (.number r.1, r.2) := by
  have hne : ∀ d, isDigit d = false → b ≠ d := by
    rintro d hd rfl
    rw [h] at hd
    cases hd
  rw [readScalar, if_neg (hne _ (by decide)), if_neg (hne _ (by decide)),
    if_neg (hne _ (by decide)), if_neg (hne _ (by decide)), h, if_pos rfl]
  cases readNumber false (b :: s) <;> rfl

theorem readScalar_minus (s : Octets) :
    readScalar (0x2D :: s) = (readNumber true s).map fun r => (.number r.1, r.2) := by
  rw [readScalar, if_neg (by decide), if_neg (by decide), if_neg (by decide), if_pos rfl]
  cases readNumber true s <;> rfl

theorem readScalar_integer {n : Int} (hlo : -limit63 ≤ n) (hhi : n < limit64) {t : Octets}
    (ht : Ends t) :
    readScalar (octets (decimalInt n) ++ t) = .ok (.number (.integer n), t) := by
  cases n with
  | ofNat k =>
    have hk : k < limit64 := Int.ofNat_lt.mp hhi
    have hread : readNumber false (octets (decimal k) ++ t) = .ok (.integer k, t) :=
      readNumber_decimal hk (fun h => absurd h (by decide)) ht
    obtain ⟨c, l, hl⟩ := List.exists_cons_of_ne_nil (decimal_ne_nil k)
    have hdigit : c.isDigit = true := isDigit_of_mem_decimal (hl ▸ List.mem_cons_self)
    show readScalar (octets (decimal k) ++ t) = _
    rw [hl, octets_digit hdigit, List.cons_append] at hread ⊢
    rw [readScalar_digit (isDigit_octet hdigit), hread]
    rfl
  | negSucc k =>
    have hk : k + 1 ≤ limit63 := Int.ofNat_le.mp (Int.neg_le_neg_iff.mp hlo)
    have hlt : k + 1 < limit64 := Nat.lt_of_le_of_lt hk (by decide)
    have hread : readNumber true (octets (decimal (k + 1)) ++ t) =
        .ok (.integer (-((k + 1 : Nat) : Int)), t) :=
      readNumber_decimal hlt (fun _ => ⟨Nat.succ_pos k, hk⟩) ht
    show readScalar (0x2D :: (octets (decimal (k + 1)) ++ t)) = _
    rw [readScalar_minus, hread]
    rfl

/-- The double that the text of a double is read as. -/
def readBack (x : Double) : Double :=
  match readScalar (octets (x.text .json)) with
  | .ok (.number (.double y), _) => y
  | _ => x

theorem octets_text {x : Double} (h : x.isFinite = true) : ∃ p : Spelling, p.IsDouble ∧
    ∃ b s, octets p.chars = b :: s ∧ isDigit b = true ∧
      octets (x.text .json) = if x.isNegative then 0x2D :: b :: s else b :: s := by
  obtain ⟨p, hp, hspells⟩ := exists_spells h
  obtain ⟨c, l, hl, hc⟩ := hp.valid.exists_digit
  refine ⟨p, hp, _, _, (congrArg octets hl).trans (octets_digit hc l), isDigit_octet hc, ?_⟩
  unfold Spells at hspells
  rw [hspells, hl]
  cases x.isNegative with
  | false => exact octets_digit hc l
  | true => exact congrArg (0x2D :: ·) (octets_digit hc l)

/-- The text of a finite double is read as a double, whatever comes after it. -/
theorem readScalar_double {x : Double} (h : x.isFinite = true) {t : Octets} (ht : Ends t) :
    readScalar (octets (x.text .json) ++ t) = .ok (.number (.double (readBack x)), t) := by
  obtain ⟨p, hp, b, s, hs, hb, htext⟩ := octets_text h
  obtain ⟨y, hy⟩ := hp.readNumber x.isNegative
  have hread : ∀ u, Ends u →
      readScalar (octets (x.text .json) ++ u) = .ok (.number (.double y), u) := by
    intro u hu
    have hnumber := hy u hu
    rw [hs, List.cons_append] at hnumber
    rw [htext]
    cases hsign : x.isNegative with
    | false =>
      rw [hsign] at hnumber
      show readScalar (b :: (s ++ u)) = _
      rw [readScalar_digit hb, hnumber]
      rfl
    | true =>
      rw [hsign] at hnumber
      show readScalar (0x2D :: b :: (s ++ u)) = _
      rw [readScalar_minus, hnumber]
      rfl
  have hback : readBack x = y := by
    have halone := hread [] ends_nil
    rw [List.append_nil] at halone
    rw [readBack, halone]
  rw [hback]
  exact hread t ht

theorem readBack_minusZero : readBack (.withSign true .zero) = .withSign true .zero := by
  decide +kernel

end Scalars

mutual

/-- The value as its text is read: names in ascending order, the last of equal names, and doubles
as the reader rounds them. -/
def reread : Json → Json
  | .null => .null
  | .bool b => .bool b
  | .number (.integer n) => .number (.integer n)
  | .number (.double x) => .number (.double (readBack x))
  | .string s => .string s
  | .array items => .array (rereadItems items)
  | .object members => .object (Ascending.ofList (rereadMembers members))

def rereadItems : List Json → List Json
  | [] => []
  | v :: rest => reread v :: rereadItems rest

def rereadMembers : List (String × Json) → List (String × Json)
  | [] => []
  | (name, v) :: rest => (name, reread v) :: rereadMembers rest

end

theorem rereadItems_eq_map (items : List Json) : rereadItems items = items.map reread := by
  induction items with
  | nil => rfl
  | cons v rest ih => rw [rereadItems, ih, List.map_cons]

theorem rereadMembers_eq_map (members : List (String × Json)) :
    rereadMembers members = members.map fun m => (m.1, reread m.2) := by
  induction members with
  | nil => rfl
  | cons m rest ih => rw [rereadMembers, ih, List.map_cons]

theorem reread_array (items : List Json) : reread (.array items) = .array (items.map reread) := by
  rw [reread, rereadItems_eq_map]

theorem reread_object (members : List (String × Json)) :
    reread (.object members) =
      .object (Ascending.ofList (members.map fun m => (m.1, reread m.2))) := by
  rw [reread, rereadMembers_eq_map]

/-- Without doubles nothing is rounded. -/
theorem Whole.reread_eq {room : Nat} {v : Json} (h : Whole room v) : v.reread = v.arranged := by
  induction h with
  | null => rfl
  | bool b => rfl
  | integer hlo hhi => rfl
  | minusZero => exact congrArg (fun x => Json.number (.double x)) readBack_minusZero
  | string s => rfl
  | array hitems ih =>
    rw [reread_array, arranged_array]
    exact congrArg Json.array (List.map_congr_left ih)
  | @object room members hmembers ih =>
    have hmap : (members.map fun m => (m.1, reread m.2)) =
        members.map fun m => (m.1, m.2.arranged) :=
      List.map_congr_left fun m hm => Prod.ext rfl (ih m hm)
    rw [reread_object, arranged_object, hmap]

def Begins (b : UInt8) : Prop := isBlank b = false ∧ b ≠ 0x5D

def BeginsScalar (b : UInt8) : Prop := Begins b ∧ b ≠ 0x5B ∧ b ≠ 0x7B

instance (b : UInt8) : Decidable (Begins b) := inferInstanceAs (Decidable (_ ∧ _))

instance (b : UInt8) : Decidable (BeginsScalar b) := inferInstanceAs (Decidable (_ ∧ _))

theorem readValue_scalar {b : UInt8} (hb : BeginsScalar b) (room : Nat) (s : Octets) :
    readValue room (b :: s) = readScalar (b :: s) := by
  obtain ⟨⟨hblank, -⟩, hitems, hmembers⟩ := hb
  have hneither : ¬ (b = 0x5B ∨ b = 0x7B) := not_or.mpr ⟨hitems, hmembers⟩
  cases room with
  | zero => simp only [readValue, skipBlanks_cons s hblank, if_neg hneither]
  | succ room =>
    simp only [readValue, skipBlanks_cons s hblank, if_neg hitems, if_neg hmembers]

theorem beginsScalar_of_isDigit {b : UInt8} (h : isDigit b = true) : BeginsScalar b := by
  have hne : ∀ d, isDigit d = false → b ≠ d := by
    rintro d hd rfl
    rw [h] at hd
    cases hd
  refine ⟨⟨?_, hne _ (by decide)⟩, hne _ (by decide), hne _ (by decide)⟩
  unfold isBlank
  simp only [hne 0x20 (by decide), hne 0x09 (by decide), hne 0x0A (by decide),
    hne 0x0D (by decide), decide_false, Bool.or_false]

theorem octets_decimalInt (n : Int) :
    ∃ b s, octets (decimalInt n) = b :: s ∧ BeginsScalar b := by
  cases n with
  | ofNat k =>
    obtain ⟨c, l, hl⟩ := List.exists_cons_of_ne_nil (decimal_ne_nil k)
    have hdigit : c.isDigit = true := isDigit_of_mem_decimal (hl ▸ List.mem_cons_self)
    refine ⟨_, octets l, ?_, beginsScalar_of_isDigit (isDigit_octet hdigit)⟩
    rw [decimalInt, hl, octets_digit hdigit]
  | negSucc k => exact ⟨0x2D, octets (decimal (k + 1)), rfl, by decide⟩

theorem octets_double {x : Double} (h : x.isFinite = true) :
    ∃ b s, octets (x.text .json) = b :: s ∧ BeginsScalar b := by
  obtain ⟨-, -, b, s, -, hb, htext⟩ := octets_text h
  cases hsign : x.isNegative with
  | false =>
    rw [hsign] at htext
    exact ⟨b, s, htext, beginsScalar_of_isDigit hb⟩
  | true =>
    rw [hsign] at htext
    exact ⟨0x2D, b :: s, htext, by decide⟩

theorem Legible.begins {room : Nat} {v : Json} (h : Legible room v) :
    ∃ b s, octets v.chars = b :: s ∧ Begins b := by
  cases h with
  | null => exact ⟨0x6E, [0x75, 0x6C, 0x6C], by decide, by decide⟩
  | bool b =>
    cases b with
    | false => exact ⟨0x66, [0x61, 0x6C, 0x73, 0x65], by decide, by decide⟩
    | true => exact ⟨0x74, [0x72, 0x75, 0x65], by decide, by decide⟩
  | integer hlo hhi =>
    rename_i n
    obtain ⟨b, s, hs, hb⟩ := octets_decimalInt n
    exact ⟨b, s, hs, hb.1⟩
  | double hfinite =>
    rename_i x
    obtain ⟨b, s, hs, hb⟩ := octets_double hfinite
    exact ⟨b, s, hs, hb.1⟩
  | string s => exact ⟨0x22, _, octets_literal s, by decide⟩
  | array h => exact ⟨0x5B, _, rfl, by decide⟩
  | object h => exact ⟨0x7B, _, rfl, by decide⟩

theorem Whole.begins {room : Nat} {v : Json} (h : Whole room v) :
    ∃ b s, octets v.chars = b :: s ∧ Begins b := h.legible.begins

section Items

variable {α : Type} {item : Reader α} {items : List Json} {l : List α}

theorem ends_itemChars (items : List Json) (t : Octets) :
    Ends (octets (itemChars false items) ++ 0x5D :: t) := by
  cases items with
  | nil => exact ends_cons _ (by decide)
  | cons v items => exact ends_cons _ (by decide)

theorem octets_itemChars (first : Bool) (v : Json) (items : List Json) (t : Octets) :
    octets (itemChars first (v :: items)) ++ t =
      octets (if first then [] else [',']) ++
        (octets v.chars ++ (octets (itemChars false items) ++ t)) := by
  rw [itemChars, octets_append, octets_append, List.append_assoc, List.append_assoc]

theorem octets_array (items : List Json) (t : Octets) : octets (chars (.array items)) ++ t =
    0x5B :: (octets (itemChars true items) ++ 0x5D :: t) := by
  rw [chars, octets_cons, octets_append, List.append_assoc, List.append_assoc]
  rfl

theorem length_le_itemChars
    (h : ∀ v ∈ items, ∃ b s, octets v.chars = b :: s ∧ Begins b) (first : Bool) :
    items.length ≤ (octets (itemChars first items)).length := by
  induction items generalizing first with
  | nil => exact Nat.le_refl _
  | cons v items ih =>
    have htext := octets_itemChars first v items []
    obtain ⟨b, s, hs, -⟩ := h v List.mem_cons_self
    have hpos : 0 < (octets v.chars).length := by
      rw [hs]
      exact Nat.succ_pos _
    have hrest := ih (fun v hv => h v (List.mem_cons_of_mem _ hv)) false
    rw [List.append_nil, List.append_nil] at htext
    rw [htext, List.length_cons, List.length_append, List.length_append]
    omega

/-- Items that are read one by one are read as an array. -/
theorem readItems_itemChars
    (hread : List.Forall₂ (fun v a => ∀ t, Ends t → item (octets v.chars ++ t) = .ok (a, t))
      items l)
    (hbegins : ∀ v ∈ items, ∃ b s, octets v.chars = b :: s ∧ Begins b) {fuel : Nat}
    (hfuel : items.length < fuel) (first : Bool) (t : Octets) :
    readItems item fuel first (octets (itemChars first items) ++ 0x5D :: t) = .ok (l, t) := by
  induction hread generalizing fuel first with
  | nil =>
    obtain ⟨n, rfl⟩ := Nat.exists_eq_add_one_of_ne_zero (Nat.ne_of_gt hfuel)
    have hclose : readSeparator 0x5D first (0x5D :: t) = .ok (false, 0x5D :: t) := by
      cases first <;> rfl
    show readItems item (n + 1) first (0x5D :: t) = _
    rw [readItems, hclose]
    rfl
  | @cons v a items l hv hitems ih =>
    obtain ⟨n, rfl⟩ := Nat.exists_eq_add_one_of_ne_zero (Nat.ne_of_gt (Nat.zero_lt_of_lt hfuel))
    have hitem := hv _ (ends_itemChars items t)
    have hrest := ih (fun v hv => hbegins v (List.mem_cons_of_mem _ hv))
      (Nat.lt_of_succ_lt_succ hfuel) false
    obtain ⟨b, s, hs, hblank, hb⟩ := hbegins v List.mem_cons_self
    rw [octets_itemChars]
    rw [hs, List.cons_append] at hitem ⊢
    rw [readItems, readSeparator_next (by decide) hblank hb]
    simp only [bind, Except.bind, if_true, hitem, hrest]

/-- There is fuel enough for all items of an array. -/
theorem readItems_array
    (hread : List.Forall₂ (fun v a => ∀ t, Ends t → item (octets v.chars ++ t) = .ok (a, t))
      items l)
    (hbegins : ∀ v ∈ items, ∃ b s, octets v.chars = b :: s ∧ Begins b) (t : Octets) :
    readItems item ((octets (itemChars true items) ++ 0x5D :: t).length + 1) true
      (octets (itemChars true items) ++ 0x5D :: t) = .ok (l, t) := by
  have hle := length_le_itemChars hbegins true
  apply readItems_itemChars hread hbegins
  rw [List.length_append]
  omega

end Items

section Members

variable {room : Nat} {members : List (String × Json)} {f : Json → Json}

private theorem readMember_value {name : String} {acc : List (String × Json)} {v : Json}
    {s t : Octets} (hv : readValue room s = .ok (v, t)) :
    readValue.readMember room name acc (0x3A :: s) = .ok (Ascending.insert name v acc, t) := by
  have hcolon : readColon (0x3A :: s) = .ok s := rfl
  unfold readValue.readMember
  simp only [hcolon, hv, bind, Except.bind]

/-- Members are set one after the other. -/
theorem readMembers_memberChars
    (hread : ∀ m ∈ members, ∀ t, Ends t →
      readValue room (octets m.2.chars ++ t) = .ok (f m.2, t))
    (acc : List (String × Json)) {fuel : Nat}
    (hfuel : members.length < fuel) (first : Bool) (t : Octets) :
    readMembers (readValue.readMember room) fuel first acc
        (octets (memberChars first members) ++ 0x7D :: t) =
      .ok ((members.map fun m => (m.1, f m.2)).foldl
        (fun acc e => Ascending.insert e.1 e.2 acc) acc, t) := by
  induction members generalizing acc fuel first with
  | nil =>
    obtain ⟨n, rfl⟩ := Nat.exists_eq_add_one_of_ne_zero (Nat.ne_of_gt hfuel)
    exact readMembers_close n first acc t
  | cons m members ih =>
    obtain ⟨n, rfl⟩ := Nat.exists_eq_add_one_of_ne_zero (Nat.ne_of_gt (Nat.zero_lt_of_lt hfuel))
    have hvalue := hread m List.mem_cons_self _ (ends_memberChars members t)
    have hrest := ih (fun m hm => hread m (List.mem_cons_of_mem _ hm))
      (Ascending.insert m.1 (f m.2) acc) (Nat.lt_of_succ_lt_succ hfuel) false
    rw [octets_memberChars, readMembers_member n first (readMember_value hvalue)]
    exact hrest

end Members

/-- A value is read where its text is written, at the room it was measured at. -/
theorem readValue_legible {room : Nat} {v : Json} (h : Legible room v) {t : Octets}
    (ht : Ends t) : readValue room (octets v.chars ++ t) = .ok (v.reread, t) := by
  -- `Legible` grows by one unit of room a container, as the reader spends it; what comes after a
  -- value differs between a container and its parts, so it is generalised.
  induction h generalizing t with
  | null => exact readValue_scalar (b := 0x6E) (by decide) _ _
  | bool b =>
    cases b with
    | false => exact readValue_scalar (b := 0x66) (by decide) _ _
    | true => exact readValue_scalar (b := 0x74) (by decide) _ _
  | @integer room n hlo hhi =>
    obtain ⟨b, s, hs, hb⟩ := octets_decimalInt n
    have hread := readScalar_integer hlo hhi ht
    show readValue room (octets (decimalInt n) ++ t) = _
    rw [hs, List.cons_append] at hread ⊢
    rw [readValue_scalar hb, hread]
    rfl
  | @double room x hfinite =>
    obtain ⟨b, s, hs, hb⟩ := octets_double hfinite
    have hread := readScalar_double hfinite ht
    show readValue room (octets (x.text .json) ++ t) = _
    rw [hs, List.cons_append] at hread ⊢
    rw [readValue_scalar hb, hread]
    rfl
  | @string room s =>
    have hread := readScalar_literal s t
    show readValue room (octets (literal s) ++ t) = _
    rw [octets_literal, List.cons_append] at hread ⊢
    rw [readValue_scalar (by decide), hread]
    rfl
  | @array room items hitems ih =>
    have hitem : List.Forall₂ (fun v a => ∀ t, Ends t →
        readValue room (octets v.chars ++ t) = .ok (a, t)) items (items.map reread) := by
      apply List.forall₂_map_right_iff.mpr
      apply List.forall₂_same.mpr
      exact fun v hv t ht => ih v hv ht
    have hread := readItems_array hitem (fun v hv => (hitems v hv).begins) t
    have hskip := skipBlanks_cons (octets (itemChars true items) ++ 0x5D :: t)
      (show isBlank 0x5B = false by decide)
    rw [octets_array, reread_array]
    simp only [readValue, hskip, if_true, hread, bind, Except.bind]
  | @object room members hmembers ih =>
    have hmember : ∀ m ∈ members, ∀ t, Ends t →
        readValue room (octets m.2.chars ++ t) = .ok (reread m.2, t) :=
      fun m hm t ht => ih m hm ht
    have hlength : members.length <
        (octets (memberChars true members) ++ 0x7D :: t).length + 1 := by
      have hle := length_le_memberChars true members
      rw [List.length_append]
      omega
    have hread := readMembers_memberChars hmember [] hlength true t
    have hskip := skipBlanks_cons (octets (memberChars true members) ++ 0x7D :: t)
      (show isBlank 0x7B = false by decide)
    have hne : ¬ (0x7B : UInt8) = 0x5B := by decide
    rw [octets_object, reread_object]
    simp only [readValue, hskip, if_neg hne, if_true, hread, bind, Except.bind]
    rfl

/-- Without doubles, a value is read with its members arranged. -/
theorem readValue_chars {room : Nat} {v : Json} (h : Whole room v) {t : Octets} (ht : Ends t) :
    readValue room (octets v.chars ++ t) = .ok (v.arranged, t) := by
  rw [readValue_legible h.legible ht, h.reread_eq]

/-- A value is parsed from its own text. -/
theorem parse_encode_reread {v : Json} (h : Legible maxDepth v) :
    parse v.encode = .ok v.reread := by
  have hread := readValue_legible h ends_nil
  rw [List.append_nil] at hread
  rw [parse, encode, text, encode_ofList, hread]
  rfl

/-- A value without doubles is parsed from its own text, its members arranged. -/
theorem parse_encode_arranged {v : Json} (h : Whole maxDepth v) :
    parse v.encode = .ok v.arranged := by
  rw [parse_encode_reread h.legible, h.reread_eq]

/-- A value whose members are in order is parsed from its own text. -/
theorem parse_encode {v : Json} (hw : Whole maxDepth v) (ho : Ordered v) :
    parse v.encode = .ok v := by
  rw [parse_encode_arranged hw, ho.arranged_eq]

end DeviceLink.Json
