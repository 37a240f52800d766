import DeviceLink.Codec.Record
import DeviceLink.Proofs.Codec.Payload
import DeviceLink.Proofs.Json.Shape
import DeviceLink.Proofs.Parameter
import DeviceLink.Proofs.Value

/-! The records that messages are made of: each is read back, and back to what it stands for. -/
namespace DeviceLink

open Json (Shape)

theorem FeedType.ofToken?_token (t : FeedType) : ofToken? t.token = some t := by
  cases t <;> decide

theorem DataType.ofToken?_token (t : DataType) : ofToken? t.token = some t := by
  cases t <;> decide

section Texts

variable {room : Nat}

theorem FeedRecord.robust (f : FeedRecord) : shape.Robust (room + 1) f := by
  refine Shape.Robust.refine (Shape.robust_record ?_ ?_ _) rfl
  · exact .required (.required (.required (.defaulted .nil)))
  · decide

theorem AttributeRecord.robust (a : AttributeRecord) : shape.Robust (room + 1) a := by
  refine Shape.Robust.refine (Shape.robust_record ?_ ?_ _) rfl
  · exact .required (.required (.required .nil))
  · decide

end Texts

theorem FeedRecord.toFeed_ofFeed (f : Feed) : (ofFeed f).toFeed = .ok f := by
  unfold toFeed ofFeed Feed.ofTokens? Feed.make?
  simp only [FeedType.ofToken?_token, f.name_ne, f.reference_ne, dite_false]
  rfl

theorem AttributeRecord.toAttribute_ofAttribute (a : Attribute) :
    (ofAttribute a).toAttribute = .ok a := by
  unfold toAttribute ofAttribute Attribute.ofTokens? Attribute.make?
  simp only [DataType.ofToken?_token, a.name_ne, dite_false]
  rfl

def Device.canonical (d : Device) : Device :=
  { d with parameters := d.parameters.map Value.canonical }

def Device.NoDouble (d : Device) : Prop :=
  ∀ n v, d.parameters.value? n = some v → Value.kind v ≠ .double

def Message.NoDouble : Message → Prop
  | .feedValues readings => ∀ r ∈ readings, ∀ v ∈ r.values, Value.kind v ≠ .double
  | .parametersUpdate parameters => ∀ p ∈ parameters, Value.kind p.2 ≠ .double
  | .deviceRegistration devices => ∀ d ∈ devices, d.NoDouble
  | _ => True

namespace DeviceRecord

def parameterEntry (p : ParameterName × String) : String × Json := (p.1.token, Value.toJson p.2)

theorem toParameter_parameterEntry {p : ParameterName × String} (h : Value.kind p.2 ≠ .double) :
    toParameter (parameterEntry p) = .ok (p.1, Value.canonical p.2) := by
  have hname : Payload.parameter p.1.token = .ok p.1 := Payload.parameter_eq_ok.mpr rfl
  unfold toParameter parameterEntry
  simp only [hname, Value.ofJson?_toJson h, bind, Except.bind]

/-- Parameters travel in the order of their tokens, which is not that of their names. -/
theorem exists_parameters (d : Device) :
    ∃ l : List (ParameterName × String),
      l.Perm d.parameters.entries ∧ (ofDevice d).parameters = l.map parameterEntry := by
  have hmap : (d.parameters.entries.map parameterEntry).map Prod.fst =
      (d.parameters.entries.map Prod.fst).map ParameterName.token := by
    rw [List.map_map, List.map_map]
    rfl
  have hkeys : ((d.parameters.entries.map parameterEntry).map Prod.fst).Nodup := by
    rw [hmap]
    exact d.parameters.nodup_entries.map ParameterName.token_injective
  have hperm : Relation.Comp (· = List.map parameterEntry ·) List.Perm (ofDevice d).parameters
      d.parameters.entries := by
    rw [List.eq_map_comp_perm]
    exact Ascending.ofList_perm hkeys
  obtain ⟨l, hl, hentries⟩ := hperm
  exact ⟨l, hentries, hl⟩

section NoDouble

variable {d : Device} (hd : d.NoDouble)

include hd

private theorem parameters_toParameter :
    ∃ l, (ofDevice d).parameters.mapM toParameter = .ok l ∧
      ParameterTable.ofList l = d.parameters.map Value.canonical := by
  obtain ⟨l, hperm, hl⟩ := exists_parameters d
  refine ⟨l.map fun p => (p.1, Value.canonical p.2), ?_, ?_⟩
  · rw [hl]
    apply mapM_map_of_forall_ok
    intro p hp
    have hvalue := ParameterTable.mem_entries.mp (hperm.mem_iff.mp hp)
    exact toParameter_parameterEntry (hd p.1 p.2 hvalue)
  · apply ParameterTable.ofList_eq
    rw [ParameterTable.entries_map]
    exact hperm.map _

/-- The device that a record stands for differs only in the spelling of its parameters. -/
theorem toDevice_ofDevice (hname : d.name ≠ "") (hkey : d.key ≠ "") :
    (ofDevice d).toDevice = .ok d.canonical := by
  obtain ⟨l, hparameters, htable⟩ := parameters_toParameter hd
  have hfeeds : (ofDevice d).feeds.mapM FeedRecord.toFeed = .ok d.feeds :=
    mapM_map_of_inverse FeedRecord.toFeed_ofFeed d.feeds
  have hattributes : (ofDevice d).attributes.mapM AttributeRecord.toAttribute =
      .ok d.attributes :=
    mapM_map_of_inverse AttributeRecord.toAttribute_ofAttribute d.attributes
  have hname' : Payload.require "device name" (ofDevice d).name = .ok () :=
    Payload.require_eq_ok.mpr hname
  have hkey' : Payload.require "device key" (ofDevice d).key = .ok () :=
    Payload.require_eq_ok.mpr hkey
  unfold toDevice
  simp only [hname', hkey', hparameters, hfeeds, hattributes, htable, bind, Except.bind]
  rfl

theorem readsBack (room : Nat) : shape.ReadsBack (room + 3) (ofDevice d) := by
  have htext := Shape.readsBack_text (room + 2)
  have hsorted : Ascending.Sorted (ofDevice d).parameters := Ascending.sorted_ofList _
  have hparameters : (Shape.dictionary some id .any).ReadsBack (room + 2)
      (ofDevice d).parameters := by
    apply Shape.readsBack_dictionary
    · exact fun e _ => rfl
    · intro e he
      obtain ⟨p, hp, rfl⟩ := List.mem_map.mp (Ascending.mem_ofList he)
      have hkind := hd p.1 p.2 (ParameterTable.mem_entries.mp hp)
      exact Shape.readsBack_any (Value.whole_toJson hkind _) (Value.ordered_toJson hkind)
  have hfeeds : (Shape.list FeedRecord.shape).Robust (room + 2) (ofDevice d).feeds :=
    Shape.robust_list fun f _ => f.robust
  have hattributes : (Shape.list AttributeRecord.shape).Robust (room + 2)
      (ofDevice d).attributes := Shape.robust_list fun a _ => a.robust
  refine Shape.ReadsBack.refine (Shape.readsBack_record ?_ ?_) ?_
  · decide
  · refine ⟨htext d.name, htext d.key, htext d.guid, ?_, ?_, ?_, trivial⟩
    · rintro _ ⟨⟩
      exact hparameters
    · rintro _ ⟨⟩
      exact hfeeds.readsBack
    · rintro _ ⟨⟩
      exact hattributes.readsBack
  · show Except.ok _ = Except.ok _
    rw [Option.getD_some, hsorted.ofList_eq]
    rfl

end NoDouble

theorem readsBack_list {devices : List Device} (h : ∀ d ∈ devices, d.NoDouble) (room : Nat) :
    list.ReadsBack (room + 5) (devices.map .ofDevice) := by
  have hlist : (Shape.list shape).ReadsBack (room + 4) (devices.map .ofDevice) := by
    apply Shape.readsBack_list
    · intro r hr
      obtain ⟨d, hd, rfl⟩ := List.mem_map.mp hr
      exact readsBack (h d hd) room
    · exact fun r _ => ⟨0x7B, _, rfl, by decide⟩
  exact Shape.ReadsBack.refine (Shape.readsBack_record (by decide) ⟨hlist, trivial⟩) rfl

end DeviceRecord

theorem readsBack_registrationResult (success failed : List String) (room : Nat) :
    registrationResult.ReadsBack (room + 2) (success, failed) := by
  have htexts := Shape.readsBack_texts room
  refine Shape.ReadsBack.refine (Shape.readsBack_record ?_ ?_) rfl
  · decide
  · exact ⟨fun l _ => htexts l, fun l _ => htexts l, trivial⟩

end DeviceLink
