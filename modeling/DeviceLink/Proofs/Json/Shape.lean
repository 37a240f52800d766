import DeviceLink.Proofs.Json.Value
import DeviceLink.Proofs.Result
import Mathlib.Data.UInt

/-! Shapes that read back what they write: numbers, lists, dictionaries and values of any type. -/
namespace DeviceLink.Json

open Text

theorem readLeaf_scalar {α : Type} {accept : Json → Except ReadError α} {b : UInt8}
    {s t : Octets} {v : Json} {a : α} (hb : BeginsScalar b)
    (hread : readScalar (b :: s) = .ok (v, t)) (haccept : accept v = .ok a) :
    readLeaf accept (b :: s) = .ok (a, t) := by
  obtain ⟨⟨hblank, -⟩, hitems, hmembers⟩ := hb
  have hneither : ¬ (b = 0x5B ∨ b = 0x7B) := not_or.mpr ⟨hitems, hmembers⟩
  unfold readLeaf
  rw [skipBlanks_cons s hblank]
  simp only [if_neg hneither, hread, haccept, bind, Except.bind]

theorem acceptNatural_eq_ok {limit n : Nat} {v : Json} :
    acceptNatural limit v = .ok n ↔ n < limit ∧ v = .ofNat n := by
  constructor
  · intro h
    unfold acceptNatural at h
    split at h
    · split_ifs at h with hrange
      cases h
      refine ⟨by omega, ?_⟩
      rw [Json.ofNat, Int.toNat_of_nonneg hrange.1]
    · cases h
  · intro h
    obtain ⟨hn, rfl⟩ := h
    have hrange : (0 : Int) ≤ n ∧ (n : Int) < limit := by omega
    simp only [acceptNatural, Json.ofNat, if_pos hrange, Int.toNat_natCast]

inductive Row.Texts : {α : Type} → Row α → Prop
  | nil : Texts .nil
  | required {α : Type} {name : String} {rest : Row α} :
    Texts rest → Texts (.required name .text rest)
  | defaulted {α : Type} {name : String} {rest : Row α} :
    Texts rest → Texts (.defaulted name .text rest)

theorem Row.Texts.readsBack {α : Type} {row : Row α} (h : row.Texts) (room : Nat) (a : α) :
    row.ReadsBack room a := by
  induction h with
  | nil => trivial
  | required _ ih => exact ⟨Shape.readsBack_text room a.1, ih a.2⟩
  | defaulted _ ih => exact ⟨fun s _ => Shape.readsBack_text room s, ih a.2⟩

theorem Row.Texts.exists_string {α : Type} {row : Row α} (h : row.Texts) (a : α) :
    ∀ m ∈ row.toMembers a, ∃ s, m.2 = .string s := by
  induction h with
  | nil =>
    intro m hm
    cases hm
  | required _ ih =>
    intro m hm
    rcases List.mem_cons.mp hm with rfl | hm
    · exact ⟨a.1, rfl⟩
    · exact ih a.2 m hm
  | defaulted _ ih =>
    intro m hm
    rcases List.mem_append.mp hm with hm | hm
    · obtain ⟨s, -, rfl⟩ := Option.map_eq_some_iff.mp (Option.mem_toList.mp hm)
      exact ⟨s, rfl⟩
    · exact ih a.2 m hm

namespace Shape

theorem ofJson_uint64 (n : UInt64) : uint64.ofJson (.ofNat n.toNat) = .ok n := by
  show (acceptNatural limit64 (.ofNat n.toNat)).map UInt64.ofNat = .ok n
  rw [acceptNatural_eq_ok.mpr ⟨n.toNat_lt, rfl⟩]
  exact congrArg Except.ok n.ofNat_toNat

theorem ofJson_uint32 (n : UInt32) : uint32.ofJson (.ofNat n.toNat) = .ok n := by
  show (acceptNatural limit32 (.ofNat n.toNat)).map UInt32.ofNat = .ok n
  rw [acceptNatural_eq_ok.mpr ⟨n.toNat_lt, rfl⟩]
  exact congrArg Except.ok n.ofNat_toNat

/-- A natural number of 64 bits is read wherever it is accepted. -/
theorem readLeaf_ofNat {α : Type} {accept : Json → Except ReadError α} {n : Nat} {a : α}
    (hlt : n < limit64) (haccept : accept (.ofNat n) = .ok a) {t : Octets} (ht : Ends t) :
    readLeaf accept (octets (chars (.ofNat n)) ++ t) = .ok (a, t) := by
  have hlo : -(limit63 : Int) ≤ n := by
    unfold limit63
    omega
  have hread := readScalar_integer hlo (Int.ofNat_lt.mpr hlt) ht
  obtain ⟨b, s, hs, hb⟩ := octets_decimalInt (n : Int)
  show readLeaf _ (octets (decimalInt n) ++ t) = _
  rw [hs, List.cons_append] at hread ⊢
  exact readLeaf_scalar hb hread haccept

theorem readsBack_uint64 (room : Nat) (n : UInt64) : uint64.ReadsBack room n :=
  fun _ ht => readLeaf_ofNat n.toNat_lt (ofJson_uint64 n) ht

theorem readsBack_uint32 (room : Nat) (n : UInt32) : uint32.ReadsBack room n :=
  fun _ ht => readLeaf_ofNat (n.toNat_lt.trans (by decide)) (ofJson_uint32 n) ht

theorem readsBack_token {α : Type} {ofToken? : String → Option α} {name : α → String} {a : α}
    (h : ofToken? (name a) = some a) (room : Nat) : (token ofToken? name).ReadsBack room a := by
  intro t _
  show readToken room ofToken? (octets (literal (name a)) ++ t) = _
  rw [octets_literal, List.cons_append, List.append_assoc, List.singleton_append]
  unfold readToken
  rw [skipBlanks_cons _ (by decide)]
  simp only [if_true, readString_literal, known, h, bind, Except.bind]

theorem readsBack_any {room : Nat} {v : Json} (hw : Whole room v) (ho : Ordered v) :
    any.ReadsBack room v := by
  intro t ht
  have hread := readValue_chars hw ht
  rwa [ho.arranged_eq] at hread

theorem reads_list {α : Type} {item : Shape α} {room : Nat} {items : List Json} {l : List α}
    (hread : List.Forall₂ (item.Reads room) items l)
    (hbegins : ∀ v ∈ items, ∃ b s, octets v.chars = b :: s ∧ Begins b) :
    (list item).Reads (room + 1) (.array items) l := by
  intro t _
  have hitems := readItems_array hread hbegins t
  have hskip := skipBlanks_cons (octets (itemChars true items) ++ 0x5D :: t)
    (show isBlank 0x5B = false by decide)
  have hopen : ¬ (0x5B : UInt8) ≠ 0x5B := by decide
  rw [octets_array]
  simp only [read, hskip, if_neg hopen]
  exact hitems

theorem readsBack_list {α : Type} {item : Shape α} {room : Nat} {l : List α}
    (hback : ∀ a ∈ l, item.ReadsBack room a)
    (hbegins : ∀ a ∈ l, ∃ b s, octets (item.toJson a).chars = b :: s ∧ Begins b) :
    (list item).ReadsBack (room + 1) l := by
  apply reads_list
  · apply List.forall₂_map_left_iff.mpr
    exact List.forall₂_same.mpr hback
  · intro v hv
    obtain ⟨a, ha, rfl⟩ := List.mem_map.mp hv
    exact hbegins a ha

theorem readsBack_texts (room : Nat) (l : List String) :
    (list text).ReadsBack (room + 1) l := by
  apply readsBack_list
  · exact fun s _ => readsBack_text room s
  · exact fun s _ => ⟨0x22, _, octets_literal s, by decide⟩

section Dictionary

variable {κ α : Type} {ofName? : String → Option κ} {name : κ → String} {value : Shape α}
  {room : Nat}

/-- Reads an entry of a dictionary behind those that were read before. -/
def readEntry (ofName? : String → Option κ) (value : Reader α) (name : String)
    (entries : List (κ × α)) : Reader (List (κ × α)) := fun s => do
  let k ← known ofName? name
  let s ← readColon s
  let (a, s) ← value s
  .ok ((k, a) :: entries, s)

private theorem readEntry_ok {value : Reader α} {k : κ} {a : α} {key : String} {s t : Octets}
    (acc : List (κ × α)) (hname : ofName? key = some k) (hvalue : value s = .ok (a, t)) :
    readEntry ofName? value key acc (0x3A :: s) = .ok ((k, a) :: acc, t) := by
  have hcolon : readColon (0x3A :: s) = .ok s := rfl
  unfold readEntry known
  simp only [hname, hcolon, hvalue, bind, Except.bind]

private theorem readMembers_dictionary {l : List (κ × α)}
    (hnames : ∀ e ∈ l, ofName? (name e.1) = some e.1)
    (hvalues : ∀ e ∈ l, value.ReadsBack room e.2) (acc : List (κ × α)) (first : Bool)
    {fuel : Nat} (hfuel : l.length < fuel) (t : Octets) :
    readMembers (readEntry ofName? (value.read room)) fuel first acc
      (octets (memberChars first (l.map fun e => (name e.1, value.toJson e.2))) ++ 0x7D :: t) =
      .ok (l.reverse ++ acc, t) := by
  induction l generalizing acc first fuel with
  | nil =>
    obtain ⟨n, rfl⟩ := Nat.exists_eq_add_one_of_ne_zero (Nat.ne_of_gt hfuel)
    exact readMembers_close n first acc t
  | cons e l ih =>
    obtain ⟨n, rfl⟩ := Nat.exists_eq_add_one_of_ne_zero (Nat.ne_of_gt (Nat.zero_lt_of_lt hfuel))
    have hvalue := hvalues e List.mem_cons_self _
      (ends_memberChars (l.map fun e => (name e.1, value.toJson e.2)) t)
    have hentry := readEntry_ok acc (hnames e List.mem_cons_self) hvalue
    have hrest := ih (fun e he => hnames e (List.mem_cons_of_mem _ he))
      (fun e he => hvalues e (List.mem_cons_of_mem _ he)) (e :: acc) false
      (Nat.lt_of_succ_lt_succ hfuel)
    rw [List.map_cons, octets_memberChars, readMembers_member n first hentry, hrest,
      List.reverse_cons, List.append_assoc, List.singleton_append]

/-- The entries of a dictionary are read in the order that they are written in. -/
theorem readsBack_dictionary {l : List (κ × α)}
    (hnames : ∀ e ∈ l, ofName? (name e.1) = some e.1)
    (hvalues : ∀ e ∈ l, value.ReadsBack room e.2) :
    (dictionary ofName? name value).ReadsBack (room + 1) l := by
  intro t _
  have hlength : l.length < (octets (memberChars true
      (l.map fun e => (name e.1, value.toJson e.2))) ++ 0x7D :: t).length + 1 := by
    have hle := length_le_memberChars true (l.map fun e => (name e.1, value.toJson e.2))
    rw [List.length_map] at hle
    rw [List.length_append]
    omega
  have hmembers := readMembers_dictionary hnames hvalues [] true hlength t
  have hskip := skipBlanks_cons (octets (memberChars true
    (l.map fun e => (name e.1, value.toJson e.2))) ++ 0x7D :: t)
    (show isBlank 0x7B = false by decide)
  have hopen : ¬ (0x7B : UInt8) ≠ 0x7B := by decide
  rw [toJson, octets_object, read]
  simp only [hskip, if_neg hopen]
  show (readMembers (readEntry ofName? (value.read room)) _ true [] _).bind _ = _
  rw [hmembers]
  simp only [Except.bind, List.append_nil, List.reverse_reverse]

end Dictionary

/-- A value of a shape is read back where it is written, also when the members of its objects have
been put in order. -/
structure Robust {α : Type} (shape : Shape α) (room : Nat) (a : α) : Prop where
  whole : Whole room (shape.toJson a)
  readsBack : shape.ReadsBack room a
  arranged : shape.Reads room (shape.toJson a).arranged a

section Robust

variable {α β : Type} {shape : Shape α} {room : Nat}

theorem Robust.refine {check : α → Except ReadError β} {forget : β → α} {b : β}
    (h : shape.Robust room (forget b)) (hb : check (forget b) = .ok b) :
    (Shape.refine shape check forget).Robust room b where
  whole := h.whole
  readsBack := h.readsBack.refine hb
  arranged := h.arranged.refine hb

theorem robust_list {l : List α} (h : ∀ a ∈ l, shape.Robust room a) :
    (list shape).Robust (room + 1) l := by
  have hwhole : ∀ v ∈ l.map shape.toJson, Whole room v := by
    intro v hv
    obtain ⟨a, ha, rfl⟩ := List.mem_map.mp hv
    exact (h a ha).whole
  constructor
  · exact .array hwhole
  · exact readsBack_list (fun a ha => (h a ha).readsBack) fun a ha => (h a ha).whole.begins
  · have hmap : arranged ((list shape).toJson l) =
        .array (l.map fun a => arranged (shape.toJson a)) := by
      rw [toJson, arranged_array, List.map_map]
      rfl
    rw [hmap]
    apply reads_list
    · apply List.forall₂_map_left_iff.mpr
      exact List.forall₂_same.mpr fun a ha => (h a ha).arranged
    · intro v hv
      obtain ⟨a, ha, rfl⟩ := List.mem_map.mp hv
      exact (h a ha).whole.arranged.begins

theorem robust_record {row : Row α} (h : row.Texts) (hnames : row.names.Nodup) (a : α) :
    (record row).Robust (room + 1) a := by
  have htexts := h.exists_string a
  have hback := h.readsBack room a
  have hmembers := row.names_toMembers a
  have hnodup := hnames.sublist hmembers
  have hmap : ((row.toMembers a).map fun m => (m.1, arranged m.2)) = row.toMembers a := by
    conv_rhs => rw [← List.map_id (row.toMembers a)]
    apply List.map_congr_left
    intro m hm
    obtain ⟨s, hs⟩ := htexts m hm
    rw [hs]
    exact Prod.ext rfl hs.symm
  constructor
  · apply Whole.object
    intro m hm
    obtain ⟨s, hs⟩ := htexts m hm
    rw [hs]
    exact .string s
  · exact readsBack_record hnames hback
  · rw [toJson, arranged_object, hmap]
    apply reads_record hnames
    · exact (Ascending.sorted_ofList _).nodup
    · intro m hm
      exact hmembers.subset (List.mem_map_of_mem (Ascending.mem_ofList hm))
    · exact (hback.reads hnames).congr (Ascending.find?_ofList_of_nodup hnodup)

end Robust

section Held

variable {α β : Type} {name : String} {shape : Shape α} {rest : Row β}
  {members : List (String × Json)} {v : Json} {a : α} {b : β} {slot : Option α}

theorem ofMembers_required_eq_ok : (Row.required name shape rest).ofMembers members = .ok (a, b) ↔
    ∃ v, Ascending.find? name members = some v ∧ shape.ofJson v = .ok a ∧
      rest.ofMembers members = .ok b := by
  rw [Row.ofMembers]
  cases Ascending.find? name members with
  | none => simp
  | some v => simp [bind_eq_ok, Prod.mk.injEq]

theorem ofMembers_defaulted_eq_ok :
    (Row.defaulted name shape rest).ofMembers members = .ok (slot, b) ↔
      (Ascending.find? name members).mapM shape.ofJson = .ok slot ∧
        rest.ofMembers members = .ok b := by
  simp [Row.ofMembers, bind_eq_ok]

theorem ofMembers_nullable_eq_ok :
    (Row.nullable name shape rest).ofMembers members = .ok (slot, b) ↔
      ((Ascending.find? name members).filter fun v => !v.isNull).mapM shape.ofJson = .ok slot ∧
        rest.ofMembers members = .ok b := by
  simp [Row.ofMembers, bind_eq_ok]

/-- A record that is checked is an object whose members pass the check. -/
theorem ofJson_record_eq_ok {row : Row α} {check : α → Except ReadError β} {forget : β → α} :
    (Shape.refine (.record row) check forget).ofJson v = .ok b ↔
      ∃ members a, v = .object members ∧ row.ofMembers members = .ok a ∧ check a = .ok b := by
  rw [ofJson, bind_eq_ok]
  cases v <;> simp [ofJson]

theorem ofJson_list_eq_ok {items : List α} : (Shape.list shape).ofJson v = .ok items ↔
    ∃ l, v = .array l ∧ List.Forall₂ (fun v a => shape.ofJson v = .ok a) l items := by
  cases v <;> simp [ofJson, mapM_eq_ok]

theorem ofJson_text_eq_ok {s : String} : Shape.text.ofJson v = .ok s ↔ v = .string s := by
  cases v <;> simp [Shape.text, ofJson, acceptText]

theorem ofJson_uint64_eq_ok {n : UInt64} : uint64.ofJson v = .ok n ↔ v = .ofNat n.toNat := by
  constructor
  · intro h
    obtain ⟨m, hm, rfl⟩ := map_eq_ok.mp h
    obtain ⟨hlt, rfl⟩ := acceptNatural_eq_ok.mp hm
    rw [UInt64.toNat_ofNat_of_lt' hlt]
  · intro h
    rw [h]
    exact ofJson_uint64 n

theorem mapM_text_eq_ok {o : Option Json} {slot : Option String} :
    o.mapM Shape.text.ofJson = .ok slot ↔ o = slot.map .string := by
  rw [optionMapM_eq_ok]
  cases o <;> cases slot <;> simp [ofJson_text_eq_ok]

end Held

/-- Fields are found in an arranged object where they were in the object. -/
theorem find?_arranged {α : Type} {row : Row α} (hnames : row.names.Nodup) (a : α)
    (name : String) :
    Ascending.find? name
        (Ascending.ofList ((row.toMembers a).map fun m => (m.1, Json.arranged m.2))) =
      (Ascending.find? name (row.toMembers a)).map Json.arranged := by
  have hkeys : ((row.toMembers a).map fun m => (m.1, Json.arranged m.2)).map Prod.fst =
      (row.toMembers a).map Prod.fst := by
    rw [List.map_map]
    rfl
  have hnodup := hnames.sublist (row.names_toMembers a)
  rw [← hkeys] at hnodup
  rw [Ascending.find?_ofList_of_nodup hnodup, Ascending.find?_map]

end Shape
end DeviceLink.Json
