import DeviceLink.Json.Shape
import DeviceLink.Proofs.Ascending
import DeviceLink.Proofs.Json.Literal
import Mathlib.Data.Option.Defs

/-! Shapes that read back what they write: texts, refined values, and records of such fields. The
fields of a record are read in whatever order their members stand. -/
namespace DeviceLink.Json

open Text

/-- What may come after a value: nothing, a comma, or the end of a container. -/
def Ends (t : Octets) : Prop := ∀ b ∈ t.head?, b = 0x2C ∨ b = 0x5D ∨ b = 0x7D

theorem ends_nil : Ends [] := by
  intro b hb
  cases hb

theorem ends_cons {b : UInt8} (t : Octets) (h : b = 0x2C ∨ b = 0x5D ∨ b = 0x7D) :
    Ends (b :: t) := by
  intro b' hb
  cases hb
  exact h

theorem skipBlanks_cons {b : UInt8} (s : Octets) (h : isBlank b = false) :
    skipBlanks (b :: s) = b :: s := by
  unfold skipBlanks
  rw [List.dropWhile_cons, h]
  rfl

/-- A value of a shape is read back where it is written, at a given room for containers. -/
def Shape.ReadsBack {α : Type} (shape : Shape α) (room : Nat) (a : α) : Prop :=
  ∀ t, Ends t → shape.read room (octets (shape.toJson a).chars ++ t) = .ok (a, t)

theorem Shape.readsBack_text (room : Nat) (s : String) : Shape.text.ReadsBack room s := by
  intro t _
  show readLeaf acceptText (octets (literal s) ++ t) = _
  have hscalar : readScalar (0x22 :: (octets (s.toList.flatMap escaped) ++ 0x22 :: t)) =
      .ok (.string s, t) := by
    show (readString _).bind (fun r => .ok (Json.string r.1, r.2)) = _
    rw [readString_literal]
    rfl
  rw [octets_literal, List.cons_append, List.append_assoc, List.singleton_append]
  unfold readLeaf
  rw [skipBlanks_cons _ (by decide)]
  show (readScalar _).bind (fun r => (acceptText r.1).bind fun a => .ok (a, r.2)) = _
  rw [hscalar]
  rfl

/-- The text of a JSON value is read as a value of a shape, at a given room for containers. -/
def Shape.Reads {α : Type} (shape : Shape α) (room : Nat) (v : Json) (a : α) : Prop :=
  ∀ t, Ends t → shape.read room (octets v.chars ++ t) = .ok (a, t)

theorem Shape.Reads.refine {α β : Type} {shape : Shape α} {check : α → Except ReadError β}
    {forget : β → α} {room : Nat} {v : Json} {a : α} {b : β} (h : shape.Reads room v a)
    (hb : check a = .ok b) : (Shape.refine shape check forget).Reads room v b := by
  intro t ht
  show (shape.read room _).bind (fun r => (check r.1).bind fun b => .ok (b, r.2)) = _
  rw [h t ht]
  simp only [Except.bind, hb]

theorem Shape.ReadsBack.refine {α β : Type} {shape : Shape α} {check : α → Except ReadError β}
    {forget : β → α} {room : Nat} {b : β} (h : shape.ReadsBack room (forget b))
    (hb : check (forget b) = .ok b) : (Shape.refine shape check forget).ReadsBack room b :=
  Shape.Reads.refine (v := shape.toJson (forget b)) h hb

def Row.names : {α : Type} → Row α → List String
  | _, .nil => []
  | _, .required name _ rest | _, .defaulted name _ rest | _, .nullable name _ rest =>
    name :: rest.names

/-- All fields of a record are read back; what may be null is not written like null. -/
def Row.ReadsBack : {α : Type} → Row α → Nat → α → Prop
  | _, .nil, _, _ => True
  | _, .required _ shape rest, room, (a, more) => shape.ReadsBack room a ∧ rest.ReadsBack room more
  | _, .defaulted _ shape rest, room, (slot, more) =>
    (∀ a ∈ slot, shape.ReadsBack room a) ∧ rest.ReadsBack room more
  | _, .nullable _ shape rest, room, (slot, more) =>
    (∀ a ∈ slot, shape.ReadsBack room a ∧
      ∃ b s, octets (shape.toJson a).chars = b :: s ∧ isBlank b = false ∧ b ≠ 0x6E) ∧
      rest.ReadsBack room more

/-- Members that the fields of a record are read from, in any order. -/
def Row.Reads : {α : Type} → Row α → Nat → List (String × Json) → α → Prop
  | _, .nil, _, _, _ => True
  | _, .required name shape rest, room, members, (a, more) =>
    Option.Rel (shape.Reads room) (Ascending.find? name members) (some a) ∧
      rest.Reads room members more
  | _, .defaulted name shape rest, room, members, (slot, more) =>
    Option.Rel (shape.Reads room) (Ascending.find? name members) slot ∧
      rest.Reads room members more
  | _, .nullable name shape rest, room, members, (slot, more) =>
    Option.Rel (fun v a => shape.Reads room v a ∧
      ∃ b s, octets v.chars = b :: s ∧ isBlank b = false ∧ b ≠ 0x6E)
      (Ascending.find? name members) slot ∧ rest.Reads room members more

/-- The slots of a record once the members under some names are read. -/
def Row.slotsAt : {α : Type} → (row : Row α) → List String → α → row.Slots
  | _, .nil, _, _ => ()
  | _, .required name _ rest, done, (a, more) =>
    (if name ∈ done then some a else none, rest.slotsAt done more)
  | _, .defaulted name _ rest, done, (slot, more) =>
    (if name ∈ done then slot else none, rest.slotsAt done more)
  | _, .nullable name _ rest, done, (slot, more) =>
    (if name ∈ done then slot.map some else none, rest.slotsAt done more)

theorem Row.slotsAt_nil : {α : Type} → (row : Row α) → (a : α) → row.slotsAt [] a = row.empty
  | _, .nil, _ => rfl
  | _, .required _ _ rest, (_, more) => by
    rw [slotsAt, rest.slotsAt_nil more, if_neg List.not_mem_nil, empty]
  | _, .defaulted _ _ rest, (_, more) => by
    rw [slotsAt, rest.slotsAt_nil more, if_neg List.not_mem_nil, empty]
  | _, .nullable _ _ rest, (_, more) => by
    rw [slotsAt, rest.slotsAt_nil more, if_neg List.not_mem_nil, empty]

/-- A name that belongs to no field changes no slot. -/
theorem Row.slotsAt_cons : {α : Type} → (row : Row α) → {key : String} → key ∉ row.names →
    (done : List String) → (a : α) → row.slotsAt (key :: done) a = row.slotsAt done a
  | _, .nil, _, _, _, _ => rfl
  | _, .required name _ rest, key, h, done, (_, more) => by
    obtain ⟨hne, hrest⟩ := not_or.mp (mt List.mem_cons.mpr h)
    simp only [slotsAt, rest.slotsAt_cons hrest, List.mem_cons, Ne.symm hne, false_or]
  | _, .defaulted name _ rest, key, h, done, (_, more) => by
    obtain ⟨hne, hrest⟩ := not_or.mp (mt List.mem_cons.mpr h)
    simp only [slotsAt, rest.slotsAt_cons hrest, List.mem_cons, Ne.symm hne, false_or]
  | _, .nullable name _ rest, key, h, done, (_, more) => by
    obtain ⟨hne, hrest⟩ := not_or.mp (mt List.mem_cons.mpr h)
    simp only [slotsAt, rest.slotsAt_cons hrest, List.mem_cons, Ne.symm hne, false_or]

section Slots

variable {α : Type} {R : Json → α → Prop} {members : List (String × Json)} {name : String}
  {slot : Option α} {done : List String}

theorem slot_of_rel (h : Option.Rel R (Ascending.find? name members) slot)
    (hdone : ∀ v, Ascending.find? name members = some v → name ∈ done) :
    (if name ∈ done then slot else none) = slot := by
  cases hfind : Ascending.find? name members with
  | none =>
    rw [hfind] at h
    cases h
    exact ite_self none
  | some v => exact if_pos (hdone v hfind)

end Slots

theorem Row.ofSlots_slotsAt {room : Nat} {members : List (String × Json)} {done : List String}
    (hdone : ∀ name v, Ascending.find? name members = some v → name ∈ done) : {α : Type} →
    (row : Row α) → {a : α} → row.Reads room members a →
    row.ofSlots (row.slotsAt done a) = .ok a
  | _, .nil, _, _ => rfl
  | _, .required name _ rest, (a, more), h => by
    obtain ⟨ha, hmore⟩ := h
    simp only [ofSlots, slotsAt, slot_of_rel ha (hdone name), rest.ofSlots_slotsAt hdone hmore,
      Except.map]
  | _, .defaulted name _ rest, (slot, more), h => by
    obtain ⟨ha, hmore⟩ := h
    simp only [ofSlots, slotsAt, slot_of_rel ha (hdone name), rest.ofSlots_slotsAt hdone hmore,
      Except.map]
  | _, .nullable name _ rest, (slot, more), h => by
    obtain ⟨ha, hmore⟩ := h
    have hslot : (if name ∈ done then slot.map some else none).join = slot := by
      have hite := slot_of_rel ha (hdone name)
      split_ifs at hite ⊢ with hmem
      · cases slot <;> rfl
      · exact hite
    simp only [ofSlots, slotsAt, rest.ofSlots_slotsAt hdone hmore, Except.map, hslot]

/-- Before what begins a value or a name stands a comma, except before the first. -/
theorem readSeparator_next {close b : UInt8} (hcomma : 0x2C ≠ close) (hblank : isBlank b = false)
    (hb : b ≠ close) (first : Bool) (t : Octets) :
    readSeparator close first (octets (if first then [] else [',']) ++ b :: t) =
      .ok (true, b :: t) := by
  cases first with
  | true =>
    show readSeparator close true (b :: t) = _
    simp only [readSeparator, skipBlanks_cons t hblank, if_neg hb, if_true]
  | false =>
    have hskip : skipBlanks (0x2C :: b :: t) = 0x2C :: b :: t := skipBlanks_cons _ (by decide)
    show readSeparator close false (0x2C :: b :: t) = _
    simp only [readSeparator, hskip, if_neg hcomma, skipBlanks_cons t hblank, if_neg hb,
      Bool.false_eq_true, if_false, ne_eq, not_true_eq_false]

private theorem readSeparator_close (first : Bool) (t : Octets) :
    readSeparator 0x7D first (0x7D :: t) = .ok (false, 0x7D :: t) := by
  cases first <;> rfl

section Members

variable {σ : Type} {member : String → σ → Reader σ}

theorem readMembers_close (fuel : Nat) (first : Bool) (state : σ) (t : Octets) :
    readMembers member (fuel + 1) first state (0x7D :: t) = .ok (state, t) := by
  rw [readMembers, readSeparator_close]
  rfl

/-- A member is handed on with its name, and the others follow. -/
theorem readMembers_member {name : String} {state state' : σ} {s t : Octets} (fuel : Nat)
    (first : Bool) (h : member name state s = .ok (state', t)) :
    readMembers member (fuel + 1) first state
        (octets ((if first then [] else [',']) ++ literal name) ++ s) =
      readMembers member fuel false state' t := by
  rw [octets_append, octets_literal, List.append_assoc, List.cons_append, List.append_assoc,
    List.singleton_append, readMembers,
    readSeparator_next (by decide) (by decide) (by decide)]
  show (readString _).bind (fun r => (member r.1 state r.2).bind fun q =>
    readMembers member fuel false q.1 q.2) = _
  rw [readString_literal]
  simp only [Except.bind, h]

end Members

/-- After a member there is a comma or the end of the object. -/
theorem ends_memberChars (members : List (String × Json)) (t : Octets) :
    Ends (octets (memberChars false members) ++ 0x7D :: t) := by
  cases members with
  | nil => exact ends_cons _ (by decide)
  | cons m members =>
    obtain ⟨name, v⟩ := m
    exact ends_cons _ (by decide)

theorem readSlot_none {α : Type} {name : String} {value : Reader α} {a : α} {s t : Octets}
    (h : value s = .ok (a, t)) : readSlot name value none (0x3A :: s) = .ok (some a, t) := by
  show (value s).bind (fun r => .ok (some r.1, r.2)) = _
  rw [h]
  rfl

theorem octets_memberChars (first : Bool) (name : String) (v : Json)
    (members : List (String × Json)) (t : Octets) :
    octets (memberChars first ((name, v) :: members)) ++ t =
      octets ((if first then [] else [',']) ++ literal name) ++
        (0x3A :: (octets v.chars ++ (octets (memberChars false members) ++ t))) := by
  have hcolon : octets (':' :: v.chars) = 0x3A :: octets v.chars := rfl
  rw [memberChars, octets_append, octets_append, hcolon, List.append_assoc, List.append_assoc]
  rfl

/-- A field with its slot, before the other fields of a row. -/
structure IsField {β σ : Type} (own : String → Option β × σ → Reader (Option β × σ))
    (name : String) (value : Reader β) (rest : String → σ → Reader σ) : Prop where
  reads : ∀ slots {b s t}, value s = .ok (b, t) →
    own name (none, slots) (0x3A :: s) = .ok ((some b, slots), t)
  passes : ∀ key, key ≠ name → ∀ slot slots s,
    own key (slot, slots) s = (rest key slots s).map fun r => ((slot, r.1), r.2)

/-- The member under a name fills the slot of the field with that name, or is passed on. -/
theorem IsField.readMember {β σ : Type} {own : String → Option β × σ → Reader (Option β × σ)}
    {name : String} {value : Reader β} {rest : String → σ → Reader σ}
    (h : IsField own name value rest) (more : List String → σ) {slot : Option β} {key : String}
    {done : List String} {s t : Octets} (hkey : key ∉ done)
    (hown : key = name →
      (∃ b, slot = some b ∧ value s = .ok (b, t)) ∧ more (key :: done) = more done)
    (hrest : key ≠ name → rest key (more done) (0x3A :: s) = .ok (more (key :: done), t)) :
    own key (if name ∈ done then slot else none, more done) (0x3A :: s) =
      .ok ((if name ∈ key :: done then slot else none, more (key :: done)), t) := by
  by_cases heq : key = name
  · obtain ⟨⟨b, rfl, hb⟩, hmore⟩ := hown heq
    subst heq
    rw [if_neg hkey, if_pos List.mem_cons_self, hmore, h.reads (more done) hb]
  · have hmem : name ∈ key :: done ↔ name ∈ done := by
      rw [List.mem_cons]
      exact or_iff_right (Ne.symm heq)
    rw [h.passes key heq, hrest heq]
    simp only [hmem, Except.map]

theorem Row.isField_required {α β : Type} (name : String) (shape : Shape α) (rest : Row β)
    (room : Nat) : IsField ((Row.required name shape rest).readMember room) name (shape.read room)
      (rest.readMember room) where
  reads slots b s t hv := by
    simp only [Row.readMember, if_true, readSlot_none hv, bind, Except.bind]
  passes key hne slot slots s := by
    simp only [Row.readMember, if_neg hne, bind, Except.bind]
    cases rest.readMember room key slots s <;> rfl

theorem Row.isField_defaulted {α β : Type} (name : String) (shape : Shape α) (rest : Row β)
    (room : Nat) : IsField ((Row.defaulted name shape rest).readMember room) name (shape.read room)
      (rest.readMember room) where
  reads slots b s t hv := by
    simp only [Row.readMember, if_true, readSlot_none hv, bind, Except.bind]
  passes key hne slot slots s := by
    simp only [Row.readMember, if_neg hne, bind, Except.bind]
    cases rest.readMember room key slots s <;> rfl

theorem Row.isField_nullable {α β : Type} (name : String) (shape : Shape α) (rest : Row β)
    (room : Nat) : IsField ((Row.nullable name shape rest).readMember room) name
      (readNullable (shape.read room)) (rest.readMember room) where
  reads slots b s t hv := by
    simp only [Row.readMember, if_true, readSlot_none hv, bind, Except.bind]
  passes key hne slot slots s := by
    simp only [Row.readMember, if_neg hne, bind, Except.bind]
    cases rest.readMember room key slots s <;> rfl

private theorem readNullable_some {α : Type} {value : Reader α} {a : α} {u t : Octets}
    (hu : ∃ b s, u = b :: s ∧ isBlank b = false ∧ b ≠ 0x6E) (hv : value (u ++ t) = .ok (a, t)) :
    readNullable value (u ++ t) = .ok (some a, t) := by
  obtain ⟨b, s, rfl, hblank, hnull⟩ := hu
  unfold readNullable
  rw [List.cons_append, skipBlanks_cons _ hblank]
  simp only [if_neg hnull]
  rw [← List.cons_append, hv]
  rfl

section Members

variable {room : Nat} {members : List (String × Json)}

theorem Row.readMember_slotsAt {key : String} {v : Json}
    (hv : Ascending.find? key members = some v) {done : List String} (hkey : key ∉ done)
    {t : Octets} (ht : Ends t) : {α : Type} → (row : Row α) → {a : α} → row.names.Nodup →
    row.Reads room members a → key ∈ row.names →
    row.readMember room key (row.slotsAt done a) (0x3A :: (octets v.chars ++ t)) =
      .ok (row.slotsAt (key :: done) a, t)
  | _, .nil, _, _, _, hmem => absurd hmem List.not_mem_nil
  | _, .required name shape rest, (a, more), hnodup, h, hmem => by
    obtain ⟨ha, hmore⟩ := h
    obtain ⟨hname, hrest⟩ := List.nodup_cons.mp hnodup
    apply (isField_required name shape rest room).readMember (fun done => rest.slotsAt done more)
      hkey
    · rintro rfl
      rw [hv] at ha
      cases ha with
      | some ha => exact ⟨⟨a, rfl, ha t ht⟩, rest.slotsAt_cons hname done more⟩
    · intro hne
      exact rest.readMember_slotsAt hv hkey ht hrest hmore (List.mem_of_ne_of_mem hne hmem)
  | _, .defaulted name shape rest, (slot, more), hnodup, h, hmem => by
    obtain ⟨ha, hmore⟩ := h
    obtain ⟨hname, hrest⟩ := List.nodup_cons.mp hnodup
    apply (isField_defaulted name shape rest room).readMember (fun done => rest.slotsAt done more)
      hkey
    · rintro rfl
      rw [hv] at ha
      cases ha with
      | some ha => exact ⟨⟨_, rfl, ha t ht⟩, rest.slotsAt_cons hname done more⟩
    · intro hne
      exact rest.readMember_slotsAt hv hkey ht hrest hmore (List.mem_of_ne_of_mem hne hmem)
  | _, .nullable name shape rest, (slot, more), hnodup, h, hmem => by
    obtain ⟨ha, hmore⟩ := h
    obtain ⟨hname, hrest⟩ := List.nodup_cons.mp hnodup
    apply (isField_nullable name shape rest room).readMember (fun done => rest.slotsAt done more)
      hkey
    · rintro rfl
      rw [hv] at ha
      cases ha with
      | some ha =>
        exact ⟨⟨_, rfl, readNullable_some ha.2 (ha.1 t ht)⟩, rest.slotsAt_cons hname done more⟩
    · intro hne
      exact rest.readMember_slotsAt hv hkey ht hrest hmore (List.mem_of_ne_of_mem hne hmem)

/-- Members in any order fill the slots of their fields, one after the other. -/
theorem Row.readMembers_slotsAt {α : Type} {row : Row α} {a : α} (hnames : row.names.Nodup)
    (hreads : row.Reads room members a) {todo : List (String × Json)} (done : List String)
    (htodo : ∀ m ∈ todo, Ascending.find? m.1 members = some m.2 ∧ m.1 ∈ row.names)
    (hnodup : (todo.map Prod.fst).Nodup) (hdone : ∀ m ∈ todo, m.1 ∉ done) (first : Bool)
    {fuel : Nat} (hfuel : todo.length < fuel) (t : Octets) :
    readMembers (row.readMember room) fuel first (row.slotsAt done a)
        (octets (memberChars first todo) ++ 0x7D :: t) =
      .ok (row.slotsAt ((todo.map Prod.fst).reverse ++ done) a, t) := by
  induction todo generalizing done first fuel with
  | nil =>
    obtain ⟨n, rfl⟩ := Nat.exists_eq_add_one_of_ne_zero (Nat.ne_of_gt hfuel)
    exact readMembers_close n first _ t
  | cons m todo ih =>
    obtain ⟨n, rfl⟩ := Nat.exists_eq_add_one_of_ne_zero (Nat.ne_of_gt (Nat.zero_lt_of_lt hfuel))
    obtain ⟨hm, hrest⟩ := List.nodup_cons.mp hnodup
    obtain ⟨hv, hname⟩ := htodo m List.mem_cons_self
    have hread := row.readMember_slotsAt hv (hdone m List.mem_cons_self)
      (ends_memberChars todo t) hnames hreads hname
    have hothers : ∀ m' ∈ todo, m'.1 ∉ m.1 :: done := by
      intro m' hm' hmem
      rcases List.mem_cons.mp hmem with heq | hmem
      · exact hm (heq ▸ List.mem_map_of_mem hm')
      · exact hdone m' (List.mem_cons_of_mem _ hm') hmem
    have hrun := ih (m.1 :: done) (fun m' hm' => htodo m' (List.mem_cons_of_mem _ hm')) hrest
      hothers false (Nat.lt_of_succ_lt_succ hfuel)
    rw [octets_memberChars, readMembers_member n first hread, hrun, List.map_cons,
      List.reverse_cons, List.append_assoc, List.singleton_append]

end Members

theorem octets_object (members : List (String × Json)) (t : Octets) :
    octets (chars (.object members)) ++ t =
      0x7B :: (octets (memberChars true members) ++ 0x7D :: t) := by
  rw [chars, octets_cons, octets_append, List.append_assoc, List.append_assoc]
  rfl

theorem length_le_memberChars (first : Bool) (members : List (String × Json)) :
    members.length ≤ (octets (memberChars first members)).length := by
  induction members generalizing first with
  | nil => exact Nat.le_refl _
  | cons m members ih =>
    have htext := octets_memberChars first m.1 m.2 members []
    have hrest := ih false
    rw [List.append_nil, List.append_nil] at htext
    rw [htext, List.length_cons, List.length_append, List.length_cons, List.length_append]
    omega

/-- A record is read from an object with the members of its fields, in any order. -/
theorem Shape.reads_record {α : Type} {row : Row α} {room : Nat} {members : List (String × Json)}
    {a : α} (hnames : row.names.Nodup) (hnodup : (members.map Prod.fst).Nodup)
    (hknown : ∀ m ∈ members, m.1 ∈ row.names) (hreads : row.Reads room members a) :
    (Shape.record row).Reads (room + 1) (.object members) a := by
  intro t _
  have hlength : members.length <
      (octets (memberChars true members) ++ 0x7D :: t).length + 1 := by
    have hle := length_le_memberChars true members
    rw [List.length_append]
    omega
  have htodo : ∀ m ∈ members, Ascending.find? m.1 members = some m.2 ∧ m.1 ∈ row.names :=
    fun m hm => ⟨(Ascending.find?_eq_some_iff hnodup).mpr hm, hknown m hm⟩
  have hmembers := Row.readMembers_slotsAt hnames hreads [] htodo hnodup
    (fun m hm => List.not_mem_nil) true hlength t
  have hslots : row.ofSlots (row.slotsAt ((members.map Prod.fst).reverse ++ []) a) = .ok a := by
    apply row.ofSlots_slotsAt _ hreads
    intro name v hv
    rw [List.append_nil, List.mem_reverse]
    exact List.mem_map_of_mem (f := Prod.fst) (Ascending.mem_of_find? hv)
  rw [row.slotsAt_nil a] at hmembers
  rw [octets_object, Shape.read]
  show (readMembers (row.readMember room) _ true row.empty _).bind
    (fun r => (row.ofSlots r.1).bind fun a => .ok (a, r.2)) = _
  rw [hmembers]
  simp only [Except.bind, hslots]

/-- Fields are read alike from members that are found alike. -/
theorem Row.Reads.congr {room : Nat} {members members' : List (String × Json)}
    (hfind : ∀ name, Ascending.find? name members' = Ascending.find? name members) :
    {α : Type} → {row : Row α} → {a : α} → row.Reads room members a → row.Reads room members' a
  | _, .nil, _, _ => trivial
  | _, .required name shape rest, (a, more), h => by
    obtain ⟨ha, hmore⟩ := h
    refine ⟨?_, hmore.congr hfind⟩
    rw [hfind]
    exact ha
  | _, .defaulted name shape rest, (slot, more), h => by
    obtain ⟨ha, hmore⟩ := h
    refine ⟨?_, hmore.congr hfind⟩
    rw [hfind]
    exact ha
  | _, .nullable name shape rest, (slot, more), h => by
    obtain ⟨ha, hmore⟩ := h
    refine ⟨?_, hmore.congr hfind⟩
    rw [hfind]
    exact ha

section Written

theorem Row.names_toMembers : {α : Type} → (row : Row α) → (a : α) →
    ((row.toMembers a).map Prod.fst).Sublist row.names
  | _, .nil, () => List.Sublist.refl _
  | _, .required _ _ rest, (_, more) => (rest.names_toMembers more).cons_cons _
  | _, .defaulted _ _ rest, (slot, more) => by
    cases slot with
    | none => exact (rest.names_toMembers more).cons _
    | some a => exact (rest.names_toMembers more).cons_cons _
  | _, .nullable _ _ rest, (slot, more) => by
    cases slot with
    | none => exact (rest.names_toMembers more).cons _
    | some a => exact (rest.names_toMembers more).cons_cons _

private theorem find?_toMembers_eq_none {α : Type} {row : Row α} {name : String}
    (h : name ∉ row.names) (a : α) : Ascending.find? name (row.toMembers a) = none :=
  Ascending.find?_eq_none_iff.mpr fun hmem => h ((row.names_toMembers a).subset hmem)

/-- The member of a field stands behind those of other fields, and hides none after it. -/
theorem Row.find?_member {α β : Type} {name : String} {rest : Row β}
    (hname : name ∉ rest.names) (shape : Shape α) {before : List (String × Json)}
    (hbefore : ∀ other ∈ name :: rest.names, Ascending.find? other before = none)
    (slot : Option α) (more : β) :
    Ascending.find? name (before ++ ((slot.map fun a => (name, shape.toJson a)).toList ++
        rest.toMembers more)) = slot.map shape.toJson ∧
      ∀ other ∈ rest.names, Ascending.find? other
        (before ++ (slot.map fun a => (name, shape.toJson a)).toList) = none := by
  have hrest := find?_toMembers_eq_none hname more
  constructor
  · rw [Ascending.find?_append, Ascending.find?_append, hbefore name List.mem_cons_self, hrest]
    cases slot with
    | none => rfl
    | some a => simp [Ascending.find?]
  · intro other hother
    have hne : other ≠ name := fun heq => hname (heq ▸ hother)
    rw [Ascending.find?_append, hbefore other (List.mem_cons_of_mem _ hother)]
    cases slot with
    | none => rfl
    | some a => exact if_neg hne

/-- Fields that are read back are read from the members that they are written as. -/
theorem Row.ReadsBack.reads_append {room : Nat} : {α : Type} → {row : Row α} → {a : α} →
    row.ReadsBack room a → row.names.Nodup → {before : List (String × Json)} →
    (∀ name ∈ row.names, Ascending.find? name before = none) →
    row.Reads room (before ++ row.toMembers a) a
  | _, .nil, _, _, _, _, _ => trivial
  | _, .required name shape rest, (a, more), h, hnodup, before, hbefore => by
    obtain ⟨ha, hmore⟩ := h
    obtain ⟨hname, hrest⟩ := List.nodup_cons.mp hnodup
    obtain ⟨hfind, hothers⟩ := find?_member hname shape hbefore (some a) more
    have hreads := hmore.reads_append hrest hothers
    rw [List.append_assoc] at hreads
    rw [Option.map_some, Option.toList_some, List.singleton_append] at hfind
    refine ⟨?_, hreads⟩
    rw [toMembers, hfind]
    exact .some ha
  | _, .defaulted name shape rest, (slot, more), h, hnodup, before, hbefore => by
    obtain ⟨ha, hmore⟩ := h
    obtain ⟨hname, hrest⟩ := List.nodup_cons.mp hnodup
    obtain ⟨hfind, hothers⟩ := find?_member hname shape hbefore slot more
    have hreads := hmore.reads_append hrest hothers
    rw [List.append_assoc] at hreads
    refine ⟨?_, hreads⟩
    rw [toMembers, hfind]
    cases slot with
    | none => exact .none
    | some a => exact .some (ha a rfl)
  | _, .nullable name shape rest, (slot, more), h, hnodup, before, hbefore => by
    obtain ⟨ha, hmore⟩ := h
    obtain ⟨hname, hrest⟩ := List.nodup_cons.mp hnodup
    obtain ⟨hfind, hothers⟩ := find?_member hname shape hbefore slot more
    have hreads := hmore.reads_append hrest hothers
    rw [List.append_assoc] at hreads
    refine ⟨?_, hreads⟩
    rw [toMembers, hfind]
    cases slot with
    | none => exact .none
    | some a => exact .some (ha a rfl)

theorem Row.ReadsBack.reads {room : Nat} {α : Type} {row : Row α} {a : α}
    (h : row.ReadsBack room a) (hnodup : row.names.Nodup) :
    row.Reads room (row.toMembers a) a := by
  have hnil : ∀ name ∈ row.names, Ascending.find? name ([] : List (String × Json)) = none :=
    fun _ _ => rfl
  exact h.reads_append hnodup hnil

end Written

/-- A record is read back from its object. -/
theorem Shape.readsBack_record {α : Type} {row : Row α} {room : Nat} {a : α}
    (hnodup : row.names.Nodup) (hback : row.ReadsBack room a) :
    (Shape.record row).ReadsBack (room + 1) a := by
  have hnames := row.names_toMembers a
  have hknown : ∀ m ∈ row.toMembers a, m.1 ∈ row.names :=
    fun m hm => hnames.subset (List.mem_map_of_mem hm)
  exact Shape.reads_record hnodup (hnodup.sublist hnames) hknown (hback.reads hnodup)

theorem Shape.Reads.parse_encode {α : Type} {shape : Shape α} {v : Json} {a : α}
    (h : shape.Reads maxDepth v a) : shape.parse v.encode = .ok a := by
  have hread := h [] ends_nil
  rw [List.append_nil] at hread
  rw [Shape.parse, Json.encode, Json.text, encode_ofList, hread]
  rfl

/-- A text that was rendered is parsed to the value it was rendered from. -/
theorem Shape.ReadsBack.parse_render {α : Type} {shape : Shape α} {a : α}
    (h : shape.ReadsBack maxDepth a) : shape.parse (Text.encode (shape.render a)) = .ok a :=
  Shape.Reads.parse_encode (v := shape.toJson a) h

end DeviceLink.Json
