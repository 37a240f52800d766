import DeviceLink.Proofs.Codec.FeedValues
import DeviceLink.Proofs.Codec.Record
import DeviceLink.Proofs.Codec.Subdevice

/-! Data of subdevices: a gateway on the way may put the members of objects in another order, but
what is read at the end is the same. -/
namespace DeviceLink

open Json (Shape)

namespace Subdevice

section Passing

variable {gateway key : String} {t : MessageType}

theorem exists_passed {content arrived : Octets} (hgateway : gateway ≠ "") (hkey : key ≠ "")
    (ht : t ∈ types) (hc : Carriable (.ofToken t.token) content)
    (hback : contentOfJson (.ofToken t.token) (contentToJson (.ofToken t.token) content) =
      .ok arrived) :
    ∃ w, (Area.gatewaySubdevice.make gateway
        (.gatewaySubdevice ⟨Topic.channel .deviceToPlatform key t, content⟩)).value = some w ∧
      (parse w).value = [⟨Topic.channel .deviceToPlatform key t, arrived⟩] := by
  refine ⟨_, Area.make_eq_some.mpr (wrap_channel hgateway hkey ht), ?_⟩
  rw [parse_carried_alone hkey ht hc hback]

theorem carriable_nil (type : MessageType) : Carriable type [] := by
  refine Or.inr ⟨rfl, fun v hv => ?_⟩
  exact absurd hv (not_parse_nil v)

theorem encode_ne_nil {v : Json} (hw : Json.Whole 126 v) : v.encode ≠ [] := by
  have hparse := Json.parse_encode_arranged (hw.mono (Nat.le_succ 126))
  intro hnil
  rw [hnil] at hparse
  exact not_parse_nil _ hparse

theorem exists_passed_nil (hgateway : gateway ≠ "") (hkey : key ≠ "") (ht : t ∈ types)
    (hchunk : t ≠ .fileBinaryResponse) :
    ∃ w, (Area.gatewaySubdevice.make gateway
        (.gatewaySubdevice ⟨Topic.channel .deviceToPlatform key t, []⟩)).value = some w ∧
      (parse w).value = [⟨Topic.channel .deviceToPlatform key t, []⟩] := by
  have hchunk' := mt (ofToken_eq_chunk_iff ht).mp hchunk
  apply exists_passed hgateway hkey ht (carriable_nil _)
  simp only [contentToJson, contentOfJson, if_neg hchunk', if_true]
  rfl

theorem exists_passed_encode (hgateway : gateway ≠ "") (hkey : key ≠ "") (ht : t ∈ types)
    (hchunk : t ≠ .fileBinaryResponse) {v : Json} (hw : Json.Whole 126 v)
    (hv : ∀ s, v.arranged ≠ .string s) :
    ∃ w, (Area.gatewaySubdevice.make gateway
        (.gatewaySubdevice ⟨Topic.channel .deviceToPlatform key t, v.encode⟩)).value = some w ∧
      (parse w).value = [⟨Topic.channel .deviceToPlatform key t, v.arranged.encode⟩] := by
  have hchunk' := mt (ofToken_eq_chunk_iff ht).mp hchunk
  have hparse := Json.parse_encode_arranged (hw.mono (Nat.le_succ 126))
  have hc : Carriable (.ofToken t.token) v.encode := by
    refine Or.inr ⟨?_, fun v' hv' => ?_⟩
    · rw [Json.encode, Text.decode?_encode]
      rfl
    · rw [hparse] at hv'
      exact Except.ok.inj hv' ▸ hw.arranged
  apply exists_passed hgateway hkey ht hc
  rw [contentToJson, if_neg hchunk', if_neg (encode_ne_nil hw), hparse]
  exact contentOfJson_value hchunk' hv

end Passing

end Subdevice

namespace Data

/-- A payload that a gateway can pass on, and that is read alike once its members are arranged. -/
structure Relayable (t : MessageType) (v : Json) : Prop where
  whole : Json.Whole 126 v
  container : ∀ s, v.arranged ≠ .string s
  reads : ∀ channel, Topic.messageType channel = .ofToken t.token →
    Area.data.read ⟨channel, v.arranged.encode⟩ = Area.data.read ⟨channel, v.encode⟩

section Relayable

variable {t : MessageType} {v : Json}

theorem relayable_of_ordered (hw : Json.Whole 126 v) (ho : Json.Ordered v)
    (hv : ∀ s, v ≠ .string s) : Relayable t v := by
  have harranged := ho.arranged_eq
  constructor
  · exact hw
  · rwa [harranged]
  · intro channel _
    rw [harranged]

theorem relayable_strings (l : List String) : Relayable t (Json.strings l) := by
  apply relayable_of_ordered (Payload.whole_strings l 125) (Payload.ordered_strings l)
  intro s hs
  cases hs

theorem relayable_groupsJson {readings : List Reading} {groups : Groups}
    (h : Grouped readings groups)
    (hd : ∀ r ∈ readings, ∀ v ∈ r.values, Value.kind v ≠ .double) :
    Relayable t (groupsJson groups) := by
  apply relayable_of_ordered (whole_groupsJson h hd 123) (ordered_groupsJson h hd)
  intro s hs
  cases hs

theorem relayable_parametersJson {parameters : List (ParameterName × String)}
    (hd : ∀ p ∈ parameters, Value.kind p.2 ≠ .double) :
    Relayable t (parametersJson parameters) := by
  have hmember : ∀ m ∈ Ascending.ofList
      (parameters.map fun p => (p.1.token, Value.toJson p.2)),
      ∃ p ∈ parameters, m.2 = Value.toJson p.2 := by
    intro m hm
    obtain ⟨p, hp, rfl⟩ := List.mem_map.mp (Ascending.mem_ofList hm)
    exact ⟨p, hp, rfl⟩
  apply relayable_of_ordered
  · refine .object fun m hm => ?_
    obtain ⟨p, hp, hvalue⟩ := hmember m hm
    rw [hvalue]
    exact Value.whole_toJson (hd p hp) 125
  · refine .object (Ascending.sorted_ofList _) fun m hm => ?_
    obtain ⟨p, hp, hvalue⟩ := hmember m hm
    rw [hvalue]
    exact Value.ordered_toJson (hd p hp)
  · intro s hs
    cases hs

/-- Records need not be ordered: they are read alike in any order of their members. -/
theorem relayable_list {α : Type} {shape : Shape α} {l : List α}
    {use : List α → Except CodecError Message} {read : Envelope → Except CodecError Message}
    (hshape : ∀ room, ∀ a ∈ l, shape.Robust (room + 1) a)
    (hreader : reader? (.ofToken t.token) = some read)
    (hread : ∀ e, read e = Payload.typed (.list shape) e >>= use) :
    Relayable t ((Shape.list shape).toJson l) := by
  have hrobust : ∀ room, (Shape.list shape).Robust (room + 2) l :=
    fun room => Shape.robust_list (hshape room)
  constructor
  · exact (hrobust 124).whole
  · intro s hs
    rw [Shape.toJson, Json.arranged_array] at hs
    cases hs
  · intro channel hchannel
    have hread' : ∀ content, Area.data.read ⟨channel, content⟩ =
        Payload.typed (.list shape) ⟨channel, content⟩ >>= use := by
      intro content
      have hreader' : Area.data.reader? (Area.data.messageType channel) = some read := by
        show reader? (Topic.messageType channel) = some read
        rw [hchannel]
        exact hreader
      rw [← hread]
      exact Area.read_eq hreader'
    have hmax : (Shape.list shape).Robust Json.maxDepth l := hrobust 125
    have hback : Payload.typed (.list shape) ⟨channel, ((Shape.list shape).toJson l).encode⟩ =
        .ok l := Payload.typed_encode hmax.readsBack
    rw [hread', hread', Payload.typed_encode hmax.arranged, hback]

end Relayable

section Payloads

variable {m : Message} {text : String}

theorem type_mem_types (h : payload m = .ok text) :
    m.type ∈ Subdevice.types ∧ m.type ≠ .fileBinaryResponse := by
  cases m with
  | feedValues | feedRegistration | feedRemoval | attributeRegistration | parametersUpdate
  | synchronizeParameters | pullFeedValues | parametersPull | detailsSynchronizationRequest =>
    rw [Message.type]
    decide
  | _ => cases h

/-- The payload of a data message is empty or JSON that can be passed on. -/
theorem payload_cases (h : payload m = .ok text) (hd : m.NoDouble) :
    text = "" ∨ ∃ v, text = v.text ∧ Relayable m.type v := by
  cases m with
  | feedValues readings =>
    obtain ⟨groups, hfold, rfl⟩ := payload_feedValues h
    exact Or.inr ⟨_, rfl, relayable_groupsJson (grouped_of_foldlM hfold) hd⟩
  | feedRegistration feeds =>
    dsimp only [payload, listText] at h
    split_ifs at h
    cases h
    exact Or.inr ⟨_, rfl, relayable_list (fun _ f _ => f.robust) rfl fun _ => rfl⟩
  | feedRemoval references =>
    dsimp only [payload] at h
    split_ifs at h
    obtain ⟨-, -, h⟩ := bind_eq_ok.mp h
    cases h
    exact Or.inr ⟨_, rfl, relayable_strings references⟩
  | attributeRegistration attributes =>
    dsimp only [payload, listText] at h
    split_ifs at h
    cases h
    exact Or.inr ⟨_, rfl, relayable_list (fun _ a _ => a.robust) rfl fun _ => rfl⟩
  | parametersUpdate parameters =>
    dsimp only [payload] at h
    split_ifs at h
    cases h
    exact Or.inr ⟨_, rfl, relayable_parametersJson hd⟩
  | synchronizeParameters names =>
    dsimp only [payload] at h
    split_ifs at h
    cases h
    exact Or.inr ⟨_, rfl, relayable_strings _⟩
  | pullFeedValues | parametersPull | detailsSynchronizationRequest =>
    cases h
    exact Or.inl rfl
  | _ => cases h

end Payloads

/-- A gateway that passes a data message on does not change what is read from it, nor the message
itself if it has no content. -/
theorem read_as_sent {gateway key : String} (hgateway : gateway ≠ "") {m : Message} {e : Envelope}
    (h : (Area.data.make key m).value = some e) (hd : m.NoDouble) :
    ∃ w u, (Area.gatewaySubdevice.make gateway (.gatewaySubdevice e)).value = some w ∧
      (Subdevice.parse w).value = [u] ∧ u.channel = e.channel ∧ (e.content = [] → u = e) ∧
      Area.data.parse u = Area.data.parse e := by
  obtain ⟨hkey, text, htext, rfl⟩ := Area.of_make (by decide) h
  obtain ⟨ht, hchunk⟩ := type_mem_types htext
  rcases payload_cases htext hd with rfl | ⟨v, rfl, hv⟩
  · obtain ⟨w, hmake, hparse⟩ := Subdevice.exists_passed_nil hgateway hkey ht hchunk
    exact ⟨w, _, hmake, hparse, rfl, fun _ => rfl, rfl⟩
  · obtain ⟨w, hmake, hparse⟩ :=
      Subdevice.exists_passed_encode hgateway hkey ht hchunk hv.whole hv.container
    have hread := hv.reads _ (Topic.messageType_channel .deviceToPlatform key m.type)
    have hne : v.encode ≠ [] := Subdevice.encode_ne_nil hv.whole
    exact ⟨w, _, hmake, hparse, rfl, fun hempty => absurd hempty hne, Area.parse_congr hread⟩

theorem read_as_sent_parameters :
    ∃ e, (Area.data.make "a/b"
        (.parametersUpdate [(.maximumMessageSize, "007"), (.gateway, "true")])).value = some e ∧
      (∀ p ∈ [(ParameterName.maximumMessageSize, "007"), (.gateway, "true")],
        Value.kind p.2 ≠ .double) ∧
      ∃ w u, (Area.gatewaySubdevice.make "GW" (.gatewaySubdevice e)).value = some w ∧
        (Subdevice.parse w).value = [u] ∧ u.channel = e.channel ∧ (e.content = [] → u = e) ∧
        Area.data.parse u = Area.data.parse e := by
  have hmake : (Area.data.make "a/b"
      (.parametersUpdate [(.maximumMessageSize, "007"), (.gateway, "true")])).value.isSome =
        true := rfl
  have hdouble : ∀ p ∈ [(ParameterName.maximumMessageSize, "007"), (.gateway, "true")],
      Value.kind p.2 ≠ .double := by
    decide
  obtain ⟨e, he⟩ := Option.isSome_iff_exists.mp hmake
  exact ⟨e, he, hdouble, read_as_sent (by decide) he hdouble⟩

end Data

end DeviceLink
