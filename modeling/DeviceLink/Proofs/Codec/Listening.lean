import DeviceLink.Proofs.Codec.Routing

/-! Listening: what an area asks for is answered where it listens, and it understands what arrives
where it listens. -/
namespace DeviceLink

namespace Topic

/-- A subscription takes in a channel: segment by segment the two agree, but a plus sign stands for
any one segment. -/
def Covers (subscription channel : String) : Prop :=
  List.Forall₂ (fun pattern segment => pattern = ['+'] ∨ pattern = segment)
    (segments subscription.toList) (segments channel.toList)

section Covers

variable (d : Direction) (key : String)

/-- The last segment of a channel holds its kind; the key may have any number of segments. -/
theorem segments_channel (t : MessageType) : segments (channel d key t).toList =
    segments d.token.toList ++ segments key.toList ++ [t.token.toList] := by
  rw [toList_channel, segments_append, segments_append, segments_of_notMem t.slash_notMem,
    List.append_assoc]

private theorem segments_wildcard : segments (wildcard d key).toList =
    segments d.token.toList ++ segments key.toList ++ [['+']] := by
  have hplus : '/' ∉ ['+'] := by decide
  rw [toList_wildcard, segments_append, segments_append, segments_of_notMem hplus,
    List.append_assoc]

theorem covers_wildcard (t : MessageType) : Covers (wildcard d key) (channel d key t) := by
  have hsame : ∀ l : List (List Char),
      List.Forall₂ (fun pattern segment => pattern = ['+'] ∨ pattern = segment) l l :=
    fun l => List.forall₂_same.mpr fun _ _ => Or.inr rfl
  unfold Covers
  rw [segments_wildcard, segments_channel]
  exact List.rel_append (hsame _) (.cons (Or.inl rfl) .nil)

end Covers

end Topic

namespace Area

variable {a : Area}

/-- An area takes in what arrives on a channel: it has a reader for the kind that it sees there.
A gateway has no readers of its own, but takes apart all that it is sent for its devices. -/
def Takes (a : Area) (channel : String) : Prop :=
  if a = .gatewaySubdevice then
    ∀ content items, Payload.json ⟨channel, content⟩ = .ok (.array items) →
      Subdevice.elements ⟨channel, content⟩ = .ok (.platformToDevice, items)
  else (a.reader? (a.messageType channel)).isSome

theorem takes_iff (ha : a ≠ .gatewaySubdevice) {channel : String} :
    a.Takes channel ↔ a.messageType channel ∈ a.readable := by
  unfold Takes
  rw [if_neg ha]
  exact isSome_reader? a _

section Inbound

variable {t : MessageType}

/-- No kind that an area listens for is mistaken for another that shares its token. -/
theorem messageType_channel (ht : t ∈ a.inboundTypes) (d : Direction) (key : String) :
    a.messageType (Topic.channel d key t) = t := by
  cases a with
  | gatewayRegistration =>
    rw [messageType, GatewayRegistration.messageType, Topic.messageType_channel]
    revert t
    decide
  | _ =>
    show Topic.messageType (Topic.channel d key t) = t
    rw [Topic.messageType_channel]
    revert t
    decide

private theorem readable_of_inboundTypes (ht : t ∈ a.inboundTypes) : t ∈ a.readable := by
  cases a <;> revert t <;> decide

theorem takes_channel (ha : a ≠ .gatewaySubdevice) (ht : t ∈ a.inboundTypes) (d : Direction)
    (key : String) : a.Takes (Topic.channel d key t) := by
  rw [takes_iff ha, messageType_channel ht]
  exact readable_of_inboundTypes ht

end Inbound

theorem takes_gateway {t : MessageType} (ht : t ≠ .unknown) (key : String) :
    Area.gatewaySubdevice.Takes (Topic.channel .platformToGateway key t) := by
  have hknown := MessageType.ofToken_ne_unknown ht
  unfold Takes
  rw [if_pos rfl]
  intro content items hitems
  unfold Subdevice.elements
  simp only [Topic.messageType_channel, if_neg hknown, Topic.direction?_channel, Option.bind_some,
    Subdevice.innerDirection?, hitems, bind, Except.bind]

section Answers

variable {t r : MessageType}

theorem inboundTypes_of_responseType? (ha : a ≠ .gatewaySubdevice)
    (h : a.responseType? t = some r) : r ∈ a.inboundTypes := by
  cases a with
  | gatewaySubdevice => exact absurd rfl ha
  | _ => cases t <;> cases h <;> decide

/-- Whoever asks, an answer has a token of its own among the kinds that are received. -/
theorem received_of_responseType? (h : a.responseType? t = some r) :
    r ≠ .unknown ∧ .ofToken r.token = r := by
  unfold responseType? at h
  split at h <;> cases h <;> decide

end Answers

section Channels

variable {key key' c : String}

theorem deviceChannels_of_ne (ha : a ≠ .gatewaySubdevice) (key : String) :
    a.deviceChannels key = a.inboundTypes.map (Topic.channel a.incoming key) := if_neg ha

theorem deviceKey_of_mem (h : c ∈ a.deviceChannels key) : Topic.deviceKey c = key := by
  by_cases ha : a = .gatewaySubdevice
  · subst ha
    rw [List.mem_singleton.mp h, Topic.deviceKey_wildcard]
  · rw [deviceChannels_of_ne ha] at h
    obtain ⟨t, -, rfl⟩ := List.mem_map.mp h
    exact Topic.deviceKey_channel _ _ _

theorem disjoint_deviceChannels (h : key ≠ key') :
    (a.deviceChannels key).Disjoint (a.deviceChannels key') := by
  intro c hc hc'
  have hkey := deviceKey_of_mem hc
  rw [deviceKey_of_mem hc'] at hkey
  exact h hkey.symm

private theorem takes_of_mem (ha : a ≠ .gatewaySubdevice)
    (h : c ∈ a.deviceChannels key ++ a.globalChannels) : a.Takes c := by
  rcases List.mem_append.mp h with hc | hc
  · rw [deviceChannels_of_ne ha] at hc
    obtain ⟨t, ht, rfl⟩ := List.mem_map.mp hc
    exact takes_channel ha ht a.incoming key
  · -- Only the status of the platform has a channel that belongs to no device.
    cases a with
    | platformStatus =>
      rw [List.mem_singleton.mp hc, takes_iff ha]
      decide
    | _ => cases hc

end Channels

/-- The channel on which a request is answered names the device, the area listens on it, and it
takes what arrives there for the answer that it is. So with every other channel that an area
listens on, and no channel serves two devices. -/
theorem listens_for_answers (a : Area) :
    (∀ t key c, a.responseChannel? t key = some c →
      Topic.deviceKey c = key ∧ a.responseType? t = some (a.messageType c) ∧ a.Takes c ∧
      if a = .gatewaySubdevice then
        a.deviceChannels key = [Topic.wildcard .platformToGateway key] ∧
          Topic.Covers (Topic.wildcard .platformToGateway key) c
      else c ∈ a.deviceChannels key) ∧
    (a ≠ .gatewaySubdevice →
      ∀ key, ∀ c ∈ a.deviceChannels key ++ a.globalChannels, a.Takes c) ∧
    ∀ key key', key ≠ key' → (a.deviceChannels key).Disjoint (a.deviceChannels key') := by
  refine ⟨?_, fun ha key c hc => takes_of_mem ha hc, fun key key' => disjoint_deviceChannels⟩
  intro t key c hc
  obtain ⟨r, hr, rfl⟩ := Option.map_eq_some_iff.mp hc
  by_cases ha : a = .gatewaySubdevice
  · subst ha
    obtain ⟨hknown, htoken⟩ := received_of_responseType? hr
    have htype : Area.gatewaySubdevice.messageType
        (Topic.channel .platformToGateway key r) = r := by
      show Topic.messageType _ = r
      rw [Topic.messageType_channel, htoken]
    refine ⟨Topic.deviceKey_channel _ _ _, ?_, takes_gateway hknown key, ?_⟩
    · rw [hr, incoming, htype]
    · rw [if_pos rfl]
      exact ⟨rfl, Topic.covers_wildcard _ _ _⟩
  · have hmem := inboundTypes_of_responseType? ha hr
    refine ⟨Topic.deviceKey_channel _ _ _, ?_, takes_channel ha hmem _ key, ?_⟩
    · rw [hr, messageType_channel hmem]
    · rw [if_neg ha, deviceChannels_of_ne ha]
      exact List.mem_map_of_mem hmem

theorem listens_for_answers_shared :
    (Area.registration.responseChannel? .childrenSynchronizationRequest "a/b" =
        some "p2d/a/b/children_synchronization" ∧
      "p2d/a/b/children_synchronization" ∈ Area.registration.deviceChannels "a/b") ∧
    (Area.gatewaySubdevice.responseChannel? .pullParameters "G/1" = some "p2g/G/1/parameters" ∧
      Topic.Covers "p2g/G/1/+" "p2g/G/1/parameters") ∧
    (Area.gatewayRegistration ≠ .gatewaySubdevice ∧
      "d2p/D/registered_devices" ∈ Area.gatewayRegistration.deviceChannels "D" ++
        Area.gatewayRegistration.globalChannels ∧
      Area.gatewayRegistration.Takes "d2p/D/registered_devices") ∧
    "a" ≠ "a/b" ∧ (Area.data.deviceChannels "a").Disjoint (Area.data.deviceChannels "a/b") := by
  have hchildren : Area.registration.responseChannel? .childrenSynchronizationRequest "a/b" =
      some "p2d/a/b/children_synchronization" := rfl
  have hparameters : Area.gatewaySubdevice.responseChannel? .pullParameters "G/1" =
      some "p2g/G/1/parameters" := rfl
  have hdevices : "d2p/D/registered_devices" ∈ Area.gatewayRegistration.deviceChannels "D" ++
      Area.gatewayRegistration.globalChannels := by
    decide
  obtain ⟨hregistration, -, -⟩ := listens_for_answers .registration
  obtain ⟨hgateway, -, -⟩ := listens_for_answers .gatewaySubdevice
  obtain ⟨-, htakes, -⟩ := listens_for_answers .gatewayRegistration
  obtain ⟨-, -, hdisjoint⟩ := listens_for_answers .data
  refine ⟨⟨hchildren, ?_⟩, ⟨hparameters, ?_⟩, ⟨by decide, hdevices, ?_⟩, by decide, ?_⟩
  · exact (hregistration _ _ _ hchildren).2.2.2
  · exact (hgateway _ _ _ hparameters).2.2.2.2
  · exact htakes (by decide) _ _ hdevices
  · exact hdisjoint "a" "a/b" (by decide)

end Area

end DeviceLink
