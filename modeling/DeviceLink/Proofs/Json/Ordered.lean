import DeviceLink.Proofs.Json.Value
import DeviceLink.Proofs.Result
import DeviceLink.Proofs.Text.Order

/-! What is read is in order: the members of every object that a reader returns strictly ascend. -/
namespace DeviceLink.Json

open Text

section Readers

variable {α σ : Type}

/-- What holds of every item that is read holds of all items of an array. -/
theorem forall_of_readItems {item : Reader α} {P : α → Prop}
    (hitem : ∀ {s a t}, item s = .ok (a, t) → P a) {fuel : Nat} {first : Bool} {s t : Octets}
    {l : List α} (h : readItems item fuel first s = .ok (l, t)) : ∀ a ∈ l, P a := by
  induction fuel generalizing first s l with
  | zero => cases h
  | succ fuel ih =>
    obtain ⟨⟨more, s₁⟩, -, h⟩ := bind_eq_ok.mp h
    cases more with
    | false =>
      cases h
      intro a ha
      cases ha
    | true =>
      obtain ⟨⟨a, s₂⟩, ha, h⟩ := bind_eq_ok.mp h
      obtain ⟨⟨rest, s₃⟩, hrest, h⟩ := bind_eq_ok.mp h
      cases h
      intro a' ha'
      rcases List.mem_cons.mp ha' with rfl | ha'
      · exact hitem ha
      · exact ih hrest a' ha'

/-- What every member preserves is preserved by all members of an object. -/
theorem invariant_of_readMembers {member : String → σ → Reader σ} {I : σ → Prop}
    (hmember : ∀ {name state s state' t},
      I state → member name state s = .ok (state', t) → I state')
    {fuel : Nat} {first : Bool} {state state' : σ} {s t : Octets} (hstate : I state)
    (h : readMembers member fuel first state s = .ok (state', t)) : I state' := by
  induction fuel generalizing first state s with
  | zero => cases h
  | succ fuel ih =>
    obtain ⟨⟨more, s₁⟩, -, h⟩ := bind_eq_ok.mp h
    cases more with
    | false =>
      cases h
      exact hstate
    | true =>
      cases s₁ with
      | nil => cases h
      | cons b s₁ =>
        dsimp only at h
        rw [if_pos rfl] at h
        split_ifs at h
        obtain ⟨⟨name, s₂⟩, -, h⟩ := bind_eq_ok.mp h
        obtain ⟨⟨state₁, s₃⟩, hread, h⟩ := bind_eq_ok.mp h
        exact ih (hmember hstate hread) h

end Readers

theorem ordered_of_readScalar {s t : Octets} {v : Json} (h : readScalar s = .ok (v, t)) :
    Ordered v := by
  cases s with
  | nil => cases h
  | cons b s =>
    unfold readScalar at h
    dsimp only at h
    split_ifs at h <;> obtain ⟨r, -, h⟩ := bind_eq_ok.mp h <;> cases h
    · exact .null
    · exact .bool true
    · exact .bool false
    · exact .number _
    · exact .number _
    · exact .string _

/-- A reader of values meets them from the inside out: what holds of every scalar, and of the items
of an array and the members of an object one level further in, holds of every value that is read. -/
theorem invariant_of_readValue {I : Nat → Json → Prop}
    (scalar : ∀ {room s v t}, readScalar s = .ok (v, t) → I room v)
    (array : ∀ {room items}, (∀ v ∈ items, I room v) → I (room + 1) (.array items))
    (object : ∀ {room members}, Ascending.Sorted members → (∀ m ∈ members, I room m.2) →
      I (room + 1) (.object members))
    {room : Nat} {s t : Octets} {v : Json} (h : readValue room s = .ok (v, t)) : I room v := by
  induction room generalizing s t v with
  | zero =>
    unfold readValue at h
    split at h
    · cases h
    · split_ifs at h
      exact scalar h
  | succ room ih =>
    unfold readValue at h
    split at h
    · cases h
    · split_ifs at h
      · obtain ⟨⟨items, s₁⟩, hitems, h⟩ := bind_eq_ok.mp h
        cases h
        exact array (forall_of_readItems ih hitems)
      · obtain ⟨⟨members, s₁⟩, hmembers, h⟩ := bind_eq_ok.mp h
        cases h
        -- Repeated and unsorted names are dealt with by the insertion of each member.
        have hstep : ∀ {name : String} {acc s acc' t},
            (Ascending.Sorted acc ∧ ∀ m ∈ acc, I room m.2) →
            readValue.readMember room name acc s = .ok (acc', t) →
            Ascending.Sorted acc' ∧ ∀ m ∈ acc', I room m.2 := by
          rintro name acc s acc' t ⟨hsorted, hall⟩ hread
          unfold readValue.readMember at hread
          obtain ⟨s₂, -, hread⟩ := bind_eq_ok.mp hread
          obtain ⟨⟨v, s₃⟩, hv, hread⟩ := bind_eq_ok.mp hread
          cases hread
          refine ⟨hsorted.insert name v, fun m hm => ?_⟩
          rcases Ascending.mem_insert hm with rfl | hm
          · exact ih hv
          · exact hall m hm
        obtain ⟨hsorted, hall⟩ := invariant_of_readMembers hstep
          ⟨Ascending.sorted_nil, fun m hm => by cases hm⟩ hmembers
        exact object hsorted hall
      · exact scalar h

/-- Every value is read with its members in ascending order of their names. -/
theorem ordered_of_readValue {room : Nat} {s t : Octets} {v : Json}
    (h : readValue room s = .ok (v, t)) : Ordered v :=
  invariant_of_readValue (I := fun _ => Ordered) ordered_of_readScalar .array .object h

theorem readValue_of_parse {s : Octets} {v : Json} (h : parse s = .ok v) :
    ∃ t, readValue maxDepth s = .ok (v, t) ∧ skipBlanks t = [] := by
  obtain ⟨⟨v', t⟩, hread, hfinish⟩ := bind_eq_ok.mp h
  unfold finish at hfinish
  dsimp only at hfinish
  split_ifs at hfinish with hblank
  cases hfinish
  exact ⟨t, hread, hblank⟩

theorem ordered_of_parse {s : Octets} {v : Json} (h : parse s = .ok v) : Ordered v := by
  obtain ⟨t, hread, -⟩ := readValue_of_parse h
  exact ordered_of_readValue hread

/-- Members that are in order ascend by the octets of their names. -/
theorem Ordered.ascending {members : List (String × Json)} (h : Ordered (.object members)) :
    members.Pairwise fun a b => Text.encode a.1 < Text.encode b.1 := by
  cases h with
  | object hsorted _ => exact hsorted.imp Text.encode_lt

end DeviceLink.Json
