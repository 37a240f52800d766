import DeviceLink.Codec.Area
import DeviceLink.Proofs.Json.Ordered
import DeviceLink.Proofs.Text.Base64
import DeviceLink.Proofs.Text.Decode
import DeviceLink.Proofs.Topic

/-! Carried messages: what a gateway wraps is unwrapped on the channel it was sent on. -/
namespace DeviceLink.Subdevice

/-- Content that a gateway can carry. It may be any octets in a chunk of a file. Elsewhere it is
text, which as JSON has no numbers but whole ones of 64 bits and leaves room for the object that it
is put into. -/
def Carriable (type : MessageType) (content : Octets) : Prop :=
  type = .fileBinaryResponse ∨
    (Text.decode? content).isSome ∧ ∀ v, Json.parse content = .ok v → Json.Whole 126 v

/-- What is left of content when it has been carried. -/
structure Arrives (type : MessageType) (content arrived : Octets) : Prop where
  chunk : type = .fileBinaryResponse → arrived = content
  empty : content = [] → arrived = content
  text : (∀ v, Json.parse content ≠ .ok v) → arrived = content
  string : type ≠ .fileBinaryResponse →
    ∀ s, Json.parse content = .ok (.string s) → arrived = Text.encode s
  value : type ≠ .fileBinaryResponse →
    ∀ v, Json.parse content = .ok v → (∀ s, v ≠ .string s) → Json.parse arrived = .ok v

section Congruence

variable {type type' : MessageType} {content arrived : Octets}

theorem Carriable.congr (h : type = .fileBinaryResponse ↔ type' = .fileBinaryResponse)
    (hc : Carriable type content) : Carriable type' content :=
  hc.imp h.mp id

theorem Arrives.congr (h : type = .fileBinaryResponse ↔ type' = .fileBinaryResponse)
    (ha : Arrives type content arrived) : Arrives type' content arrived where
  chunk hchunk := ha.chunk (h.mpr hchunk)
  empty := ha.empty
  text := ha.text
  string hne := ha.string (mt h.mp hne)
  value hne := ha.value (mt h.mp hne)

end Congruence

section Types

variable {t : MessageType}

theorem ne_unknown (h : t ∈ types) : t ≠ .unknown := by
  rintro rfl
  exact absurd h (by decide)

theorem ofToken_mem_types (h : t ∈ types) : .ofToken t.token ∈ types := by
  revert t
  decide

/-- No other carried kind shares the token of a chunk. -/
theorem ofToken_eq_chunk_iff (h : t ∈ types) :
    .ofToken t.token = MessageType.fileBinaryResponse ↔ t = .fileBinaryResponse := by
  revert t
  decide

end Types

section Content

variable {type : MessageType} {content : Octets}

theorem not_parse_nil (v : Json) : Json.parse [] ≠ .ok v := by
  have herror : Json.parse [] = .error .truncated := by
    unfold Json.parse Json.maxDepth Json.readValue
    rfl
  rw [herror]
  intro h
  cases h

theorem whole_contentToJson (h : Carriable type content) :
    Json.Whole 126 (contentToJson type content) := by
  unfold contentToJson
  split_ifs with hchunk hempty
  · exact .string _
  · exact .string _
  · cases hparse : Json.parse content with
    | error e => exact .string _
    | ok v =>
      rcases h with h | ⟨-, h⟩
      · exact absurd h hchunk
      · exact h v hparse

theorem ordered_contentToJson : Json.Ordered (contentToJson type content) := by
  unfold contentToJson
  split_ifs
  · exact .string _
  · exact .string _
  · cases hparse : Json.parse content with
    | error e => exact .string _
    | ok v => exact Json.ordered_of_parse hparse

theorem contentOfJson_value {v : Json} (hchunk : type ≠ .fileBinaryResponse)
    (hv : ∀ s, v ≠ .string s) : contentOfJson type v = .ok v.encode := by
  unfold contentOfJson
  cases v with
  | string s => exact absurd rfl (hv s)
  | _ => exact if_neg hchunk

theorem arrives_text (hno : ∀ v, Json.parse content ≠ .ok v) : Arrives type content content where
  chunk _ := rfl
  empty _ := rfl
  text _ := rfl
  string _ _ hs := absurd hs (hno _)
  value _ v hv := absurd hv (hno v)

theorem arrives_chunk (h : type = .fileBinaryResponse) : Arrives type content content where
  chunk _ := rfl
  empty _ := rfl
  text _ := rfl
  string hne := absurd h hne
  value hne := absurd h hne

/-- Content that is JSON arrives as `arrived` if this stands for the same value. -/
theorem arrives_json {arrived : Octets} {v : Json} (hchunk : type ≠ .fileBinaryResponse)
    (hparse : Json.parse content = .ok v) (hstring : ∀ s, v = .string s → arrived = Text.encode s)
    (hvalue : (∀ s, v ≠ .string s) → Json.parse arrived = .ok v) :
    Arrives type content arrived := by
  have hparsed : ∀ {v'}, Json.parse content = .ok v' → v = v' := by
    intro v' hv'
    rw [hparse] at hv'
    exact Except.ok.inj hv'
  constructor
  · exact fun h => absurd h hchunk
  · rintro rfl
    exact absurd hparse (not_parse_nil v)
  · exact fun hno => absurd hparse (hno v)
  · exact fun _ s hs => hstring s (hparsed hs)
  · rintro - v' hv' hne
    obtain rfl := hparsed hv'
    exact hvalue hne

/-- Each way in which content becomes JSON is undone by the way back. -/
theorem contentOfJson_contentToJson (h : Carriable type content) :
    ∃ arrived, contentOfJson type (contentToJson type content) = .ok arrived ∧
      Arrives type content arrived := by
  have hwhole := whole_contentToJson h
  have hordered : Json.Ordered (contentToJson type content) := ordered_contentToJson
  unfold contentToJson at hwhole hordered ⊢
  by_cases hchunk : type = .fileBinaryResponse
  · refine ⟨content, ?_, arrives_chunk hchunk⟩
    simp only [if_pos hchunk, contentOfJson, String.toList_ofList, Text.Base64.decode?_encode]
  by_cases hempty : content = []
  · subst hempty
    refine ⟨[], ?_, arrives_text not_parse_nil⟩
    simp only [if_neg hchunk, if_true, contentOfJson]
    rfl
  rw [if_neg hchunk, if_neg hempty] at hwhole hordered ⊢
  cases hparse : Json.parse content with
  | error e =>
    obtain ⟨htext, -⟩ := h.resolve_left hchunk
    obtain ⟨s, hs⟩ := Option.isSome_iff_exists.mp htext
    have hcontent : Text.encode s = content := Text.decode?_eq_some_iff.mp hs
    have hno : ∀ v, Json.parse content ≠ .ok v := by
      intro v hv
      rw [hparse] at hv
      cases hv
    refine ⟨content, ?_, arrives_text hno⟩
    simp only [contentOfJson, if_neg hchunk]
    rw [← hcontent, Text.decodeLossy_encode]
  | ok v =>
    rw [hparse] at hwhole hordered
    by_cases hstring : ∃ s, v = .string s
    · obtain ⟨s, rfl⟩ := hstring
      refine ⟨Text.encode s, if_neg hchunk, arrives_json hchunk hparse ?_ ?_⟩
      · rintro s' hs'
        rw [Json.string.inj hs']
      · exact fun hne => absurd rfl (hne s)
    · have hne : ∀ s, v ≠ .string s := fun s hs => hstring ⟨s, hs⟩
      have hback : Json.parse v.encode = .ok v :=
        Json.parse_encode (hwhole.mono (by decide)) hordered
      refine ⟨v.encode, contentOfJson_value hchunk hne, arrives_json hchunk hparse ?_ ?_⟩
      · exact fun s hs => absurd hs (hne s)
      · exact fun _ => hback

end Content

section Pairs

variable {key : String} {v : Json}

theorem whole_pair {room : Nat} (h : Json.Whole room v) :
    Json.Whole (room + 1) (.object [(deviceName, .string key), (payloadName, v)]) :=
  .object (List.forall_mem_cons.mpr ⟨.string key, List.forall_mem_singleton.mpr h⟩)

theorem sorted_pair : Ascending.Sorted [(deviceName, .string key), (payloadName, v)] := by
  refine Ascending.sorted_cons.mpr ⟨List.forall_mem_singleton.mpr ?_, ?_⟩
  · show deviceName < payloadName
    decide
  · exact List.pairwise_singleton _ _

theorem ordered_pair (h : Json.Ordered v) :
    Json.Ordered (.object [(deviceName, .string key), (payloadName, v)]) :=
  .object sorted_pair
    (List.forall_mem_cons.mpr ⟨.string key, List.forall_mem_singleton.mpr h⟩)

end Pairs

def carried (key : String) (type : MessageType) (content : Octets) : Json :=
  .object [(deviceName, .string key), (payloadName, contentToJson type content)]

theorem parse_carried {key : String} {type : MessageType} {content : Octets}
    (h : Carriable type content) :
    Json.parse (carried key type content).encode = .ok (carried key type content) :=
  Json.parse_encode (whole_pair (whole_contentToJson h)) (ordered_pair ordered_contentToJson)

section Envelopes

variable {gateway key : String} {t : MessageType} {content : Octets}

/-- The direction of the message that is wrapped is left behind. -/
theorem wrap_channel {d : Direction} (hgateway : gateway ≠ "") (hkey : key ≠ "") (ht : t ∈ types) :
    wrap gateway ⟨Topic.channel d key t, content⟩ =
      .ok ⟨Topic.channel .gatewayToPlatform gateway t,
        (carried key (.ofToken t.token) content).encode⟩ := by
  unfold wrap
  simp only [Topic.messageType_channel, Topic.deviceKey_channel, Payload.require, if_neg hgateway,
    if_neg hkey, ofToken_mem_types ht, not_true_eq_false, if_false, bind, Except.bind,
    Topic.channel_ofToken _ _ (ne_unknown ht)]
  rfl

theorem elements_carried (hc : Carriable (.ofToken t.token) content) (ht : t ∈ types) :
    elements ⟨Topic.channel .gatewayToPlatform gateway t,
        (carried key (.ofToken t.token) content).encode⟩ =
      .ok (.deviceToPlatform, [carried key (.ofToken t.token) content]) := by
  have hknown := MessageType.ofToken_ne_unknown (ne_unknown ht)
  have hjson : Payload.json ⟨Topic.channel .gatewayToPlatform gateway t,
      (carried key (.ofToken t.token) content).encode⟩ =
        .ok (carried key (.ofToken t.token) content) := by
    rw [Payload.json, parse_carried hc]
    rfl
  unfold elements
  simp only [Topic.messageType_channel, Topic.direction?_channel, if_neg hknown, innerDirection?,
    Option.bind_some, hjson, bind, Except.bind]
  rfl

theorem unwrap_carried {arrived : Octets} (hkey : key ≠ "") (ht : t ∈ types)
    (h : contentOfJson (.ofToken t.token) (contentToJson (.ofToken t.token) content) =
      .ok arrived) :
    unwrap .deviceToPlatform (.ofToken t.token) (carried key (.ofToken t.token) content) =
      .ok ⟨Topic.channel .deviceToPlatform key t, arrived⟩ := by
  have hname : (((carried key (.ofToken t.token) content).get? deviceName).bind
      Json.string?).filter (· ≠ "") = some key := by
    show (some key).filter (· ≠ "") = some key
    rw [Option.filter_some, if_pos (decide_eq_true hkey)]
  have hpayload : (carried key (.ofToken t.token) content).get? payloadName =
      some (contentToJson (.ofToken t.token) content) := rfl
  unfold unwrap
  simp only [hname, hpayload, h, bind, Except.bind, Topic.channel_ofToken _ _ (ne_unknown ht)]

/-- Nothing else comes out of the object in which content is carried, and nothing is reported. -/
theorem parse_carried_alone {arrived : Octets} (hkey : key ≠ "") (ht : t ∈ types)
    (hc : Carriable (.ofToken t.token) content)
    (h : contentOfJson (.ofToken t.token) (contentToJson (.ofToken t.token) content) =
      .ok arrived) :
    parse ⟨Topic.channel .gatewayToPlatform gateway t,
        (carried key (.ofToken t.token) content).encode⟩ =
      ⟨[⟨Topic.channel .deviceToPlatform key t, arrived⟩], []⟩ := by
  unfold parse
  rw [elements_carried hc ht]
  simp only [List.map_cons, List.map_nil, Topic.messageType_channel, unwrap_carried hkey ht h,
    Area.report]
  rfl

end Envelopes

/-- A message of a subdevice, wrapped by its gateway, is the one message that the other side
unwraps, on the channel it was sent on. -/
theorem unwrapped_as_sent {gateway key : String} (hgateway : gateway ≠ "") (hkey : key ≠ "")
    {t : MessageType} (ht : t ∈ types) {content : Octets} (hc : Carriable t content) :
    ∃ e, (Area.gatewaySubdevice.make gateway
        (.gatewaySubdevice ⟨Topic.channel .deviceToPlatform key t, content⟩)).value = some e ∧
      e.channel = Topic.channel .gatewayToPlatform gateway t ∧
      ∃ arrived, (parse e).value = [⟨Topic.channel .deviceToPlatform key t, arrived⟩] ∧
        Arrives t content arrived := by
  have hchunk := ofToken_eq_chunk_iff ht
  have hc' : Carriable (.ofToken t.token) content := hc.congr hchunk.symm
  obtain ⟨arrived, hback, harrives⟩ := contentOfJson_contentToJson hc'
  have hwrap : Area.gatewaySubdevice.write gateway
      (.gatewaySubdevice ⟨Topic.channel .deviceToPlatform key t, content⟩) =
        .ok ⟨Topic.channel .gatewayToPlatform gateway t,
          (carried key (.ofToken t.token) content).encode⟩ :=
    wrap_channel hgateway hkey ht
  have hmake : (Area.gatewaySubdevice.make gateway
      (.gatewaySubdevice ⟨Topic.channel .deviceToPlatform key t, content⟩)).value =
        some ⟨Topic.channel .gatewayToPlatform gateway t,
          (carried key (.ofToken t.token) content).encode⟩ := by
    rw [Area.make, hwrap]
    rfl
  refine ⟨_, hmake, rfl, arrived, ?_, harrives.congr hchunk⟩
  unfold parse
  rw [elements_carried hc' ht]
  simp only [List.map_cons, List.map_nil, Topic.messageType_channel,
    unwrap_carried hkey ht hback, Area.report]
  rfl

theorem unwrapped_as_sent_array :
    ∃ e, (Area.gatewaySubdevice.make "GW"
        (.gatewaySubdevice ⟨Topic.channel .deviceToPlatform "a/b" .feedValues,
          (Json.array [.ofNat 7, .null]).encode⟩)).value = some e ∧
      e.channel = Topic.channel .gatewayToPlatform "GW" .feedValues ∧
      ∃ arrived,
        (parse e).value = [⟨Topic.channel .deviceToPlatform "a/b" .feedValues, arrived⟩] ∧
        Arrives .feedValues (Json.array [.ofNat 7, .null]).encode arrived := by
  have hitems : ∀ room, ∀ i ∈ [Json.ofNat 7, .null], Json.Whole room i := by
    intro room i hi
    rcases List.mem_cons.mp hi with rfl | hi
    · exact .integer (by decide) (by decide)
    · rw [List.mem_singleton.mp hi]
      exact .null
  have hordered : Json.Ordered (.array [.ofNat 7, .null]) := by
    refine .array fun i hi => ?_
    rcases List.mem_cons.mp hi with rfl | hi
    · exact .number _
    · rw [List.mem_singleton.mp hi]
      exact .null
  have hparse := Json.parse_encode (.array (hitems 126)) hordered
  have htext : (Text.decode? (Json.array [.ofNat 7, .null]).encode).isSome := by
    rw [Json.encode, Text.decode?_encode]
    rfl
  refine unwrapped_as_sent (by decide) (by decide) (by decide) (Or.inr ⟨htext, ?_⟩)
  intro v' hv'
  rw [hparse] at hv'
  cases hv'
  exact .array (hitems 125)

end DeviceLink.Subdevice
