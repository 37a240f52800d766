import DeviceLink.Proofs.Json.Narrowing
import DeviceLink.Proofs.Json.Shape

/-! The members of an object as they stand in a text, repeated names included: the object that is
read has them in order, and of those with one name the last. -/
namespace DeviceLink.Json

/-- Members of any names, all of them and in the order of the text. -/
def writtenMembers : Shape (List (String × Json)) := .dictionary some id .any

variable {room : Nat} {s t : Octets} {members : List (String × Json)}

/-- The members in order are what those that are written come to. -/
def InOrder (entries members : List (String × Json)) : Prop :=
  members = Ascending.ofList entries.reverse

theorem ofList_reverse_cons (name : String) (v : Json) (entries : List (String × Json)) :
    Ascending.ofList ((name, v) :: entries).reverse =
      Ascending.insert name v (Ascending.ofList entries.reverse) := by
  rw [List.reverse_cons, Ascending.ofList_concat]

/-- A member is put in its place where a written one is put behind the others. -/
theorem commutes_readMember (room : Nat) (name : String) :
    Commutes InOrder (readValue.readMember room name)
      (Shape.readEntry some (readValue room) name) InOrder := by
  intro entries s members t
  unfold readValue.readMember Shape.readEntry
  constructor
  · intro h
    obtain ⟨_, rfl, h⟩ := h
    obtain ⟨s₁, hcolon, h⟩ := bind_eq_ok.mp h
    obtain ⟨⟨v, s₂⟩, hv, h⟩ := bind_eq_ok.mp h
    cases h
    refine ⟨(name, v) :: entries, ?_, (ofList_reverse_cons name v entries).symm⟩
    exact bind_eq_ok.mpr ⟨name, rfl, bind_eq_ok.mpr ⟨s₁, hcolon,
      bind_eq_ok.mpr ⟨(v, t), hv, rfl⟩⟩⟩
  · intro h
    obtain ⟨_, h, rfl⟩ := h
    obtain ⟨_, ⟨⟩, h⟩ := bind_eq_ok.mp h
    obtain ⟨s₁, hcolon, h⟩ := bind_eq_ok.mp h
    obtain ⟨⟨v, s₂⟩, hv, h⟩ := bind_eq_ok.mp h
    cases h
    refine ⟨_, rfl, bind_eq_ok.mpr ⟨s₁, hcolon, bind_eq_ok.mpr ⟨(v, t), hv, ?_⟩⟩⟩
    rw [ofList_reverse_cons]

theorem readScalar_ne_object : readScalar s ≠ .ok (.object members, t) := by
  intro h
  cases s with
  | nil => cases h
  | cons b s =>
    unfold readScalar at h
    dsimp only at h
    split_ifs at h <;> obtain ⟨_, -, h⟩ := bind_eq_ok.mp h <;> cases h

/-- After the opening brace of an object, its members are read as they are written. -/
theorem readMembers_iff {fuel : Nat} :
    (readMembers (readValue.readMember room) fuel true [] s >>= fun r =>
      .ok (Json.object r.1, r.2)) = .ok (Json.object members, t) ↔
    ∃ written, (readMembers (Shape.readEntry some (readValue room)) fuel true [] s >>=
      fun r => .ok (r.1.reverse, r.2)) = .ok (written, t) ∧
        members = Ascending.ofList written := by
  have hall := Commutes.readMembers (commutes_readMember room) fuel true [] s
  constructor
  · intro h
    obtain ⟨⟨members', t'⟩, hread, h⟩ := bind_eq_ok.mp h
    cases h
    obtain ⟨entries, hentries, horder⟩ := (hall _ _).mp ⟨[], rfl, hread⟩
    exact ⟨entries.reverse, bind_eq_ok.mpr ⟨_, hentries, rfl⟩, horder⟩
  · intro h
    obtain ⟨written, h, rfl⟩ := h
    obtain ⟨⟨entries, t'⟩, hentries, h⟩ := bind_eq_ok.mp h
    cases h
    obtain ⟨_, rfl, hread⟩ := (hall _ _).mpr ⟨entries, hentries, rfl⟩
    exact bind_eq_ok.mpr ⟨_, hread, rfl⟩

/-- An object is read where members are written, and it has the last one of every name. -/
theorem readValue_eq_object : readValue room s = .ok (.object members, t) ↔
    ∃ written, writtenMembers.read room s = .ok (written, t) ∧
      members = Ascending.ofList written := by
  rw [writtenMembers, Shape.read]
  dsimp only
  cases hs : skipBlanks s with
  | nil => cases room <;> simp [readValue, hs]
  | cons b u =>
    dsimp only
    by_cases hbrace : b = 0x7B
    · subst hbrace
      cases room with
      | zero => simp [readValue, hs]
      | succ room =>
        rw [readValue, hs]
        exact readMembers_iff
    · rw [if_pos hbrace]
      apply iff_of_false
      · intro h
        cases room with
        | zero =>
          simp only [readValue, hs] at h
          split_ifs at h
          exact readScalar_ne_object h
        | succ room =>
          simp only [readValue, hs, if_neg hbrace] at h
          split_ifs at h
          · obtain ⟨_, -, h⟩ := bind_eq_ok.mp h
            cases h
          · exact readScalar_ne_object h
      · intro h
        obtain ⟨_, hread, -⟩ := h
        exact readOther_ne_ok _ _ hread

/-- A text is an object exactly if it is a text of members, of which the last of each name
counts. -/
theorem parse_eq_object : parse s = .ok (.object members) ↔
    ∃ written, writtenMembers.parse s = .ok written ∧ members = Ascending.ofList written := by
  have hparse : Shape.any.parse s = .ok (.object members) ↔
      ∃ t, readValue maxDepth s = .ok (.object members, t) ∧ skipBlanks t = [] :=
    Shape.parse_eq_ok
  refine hparse.trans ?_
  simp only [Shape.parse_eq_ok, readValue_eq_object]
  constructor
  · intro h
    obtain ⟨t, ⟨written, hread, hmembers⟩, ht⟩ := h
    exact ⟨written, ⟨t, hread, ht⟩, hmembers⟩
  · intro h
    obtain ⟨written, ⟨t, hread, ht⟩, hmembers⟩ := h
    exact ⟨t, ⟨written, hread, hmembers⟩, ht⟩

end DeviceLink.Json
