import DeviceLink.Message
import DeviceLink.Proofs.Topic

/-! Channels as a code: what they are put together from is read off them, and what is read off
them puts them together again. -/
namespace DeviceLink.Topic

/-- The token that a kind is read from is its own, though the kind may be another. -/
theorem token_ofToken_token (t : MessageType) : (MessageType.ofToken t.token).token = t.token := by
  by_cases h : t = .unknown
  · rw [h]
    decide
  · exact (MessageType.ofToken_spec h).2

theorem carriedType_eq (c : String) : carriedType c = messageType c := by
  rw [carriedType, getLastD_segments, messageType]

section Decoded

variable {c : String} {d : Direction}

theorem channel_of_segments (hslashes : 2 ≤ c.toList.count '/') (hd : direction? c = some d)
    (ht : messageType c ≠ .unknown) : channel d (deviceKey c) (messageType c) = c := by
  obtain ⟨a, k, b, hc, ha, hb⟩ := exists_segments hslashes
  have hlast : lastSegment c.toList = b := by
    have hsplit : a ++ '/' :: (k ++ '/' :: b) = (a ++ '/' :: k) ++ '/' :: b := by
      rw [List.append_assoc, List.cons_append]
    rw [hc, hsplit, lastSegment_append hb]
  have hdirection : d.token = String.ofList a := by
    apply Direction.token_of_ofToken?
    rwa [direction?, hc, firstSegment_append ha] at hd
  have htype : (messageType c).token = String.ofList b := by
    rw [← hlast]
    exact MessageType.token_ofToken ht
  have hkey : deviceKey c = String.ofList k := by
    rw [deviceKey, hc, middle_append ha hb]
  apply String.toList_inj.mp
  rw [toList_channel, hdirection, htype, hkey, hc]
  simp only [String.toList_ofList]

theorem eq_of_channel_eq {key key' : String} {d' : Direction} {t t' : MessageType}
    (h : channel d key t = channel d' key' t') : d = d' ∧ key = key' := by
  have hdirection := congrArg direction? h
  have hkey := congrArg deviceKey h
  rw [direction?_channel, direction?_channel] at hdirection
  rw [deviceKey_channel, deviceKey_channel] at hkey
  exact ⟨Option.some.inj hdirection, hkey⟩

end Decoded

theorem deviceType_of_direction? {c : String} {d : Direction} (h : direction? c = some d) :
    deviceType c = d.deviceType := by
  rw [deviceType, h]
  rfl

/-- Channels are an exact code, both ways, of direction, key and token, whatever the key; all
cuts of a channel agree on its kind. -/
theorem exact_code :
    (∀ d key t, direction? (channel d key t) = some d ∧
      deviceType (channel d key t) = d.deviceType ∧ deviceKey (channel d key t) = key ∧
      messageType (channel d key t) = .ofToken t.token ∧
      (MessageType.ofToken t.token).token = t.token) ∧
    (∀ d key, direction? (wildcard d key) = some d ∧
      deviceType (wildcard d key) = d.deviceType ∧ deviceKey (wildcard d key) = key ∧
      messageType (wildcard d key) = .unknown) ∧
    (∀ c d, 2 ≤ c.toList.count '/' → direction? c = some d → messageType c ≠ .unknown →
      channel d (deviceKey c) (messageType c) = c) ∧
    (∀ c content, (Message.gatewaySubdevice ⟨c, content⟩).type = messageType c) ∧
    ∀ d key t d' key' t', channel d key t = channel d' key' t' → d = d' ∧ key = key' := by
  refine ⟨?_, ?_, ?_, ?_, ?_⟩
  · intro d key t
    have hdirection := direction?_channel d key t
    exact ⟨hdirection, deviceType_of_direction? hdirection, deviceKey_channel d key t,
      messageType_channel d key t, token_ofToken_token t⟩
  · intro d key
    have hdirection := direction?_wildcard d key
    exact ⟨hdirection, deviceType_of_direction? hdirection, deviceKey_wildcard d key,
      messageType_wildcard d key⟩
  · exact fun c d => channel_of_segments
  · exact fun c content => carriedType_eq c
  · exact fun d key t d' key' t' => eq_of_channel_eq

theorem exact_code_slashed :
    2 ≤ "p2g//a/b/time".toList.count '/' ∧
      direction? "p2g//a/b/time" = some .platformToGateway ∧
      messageType "p2g//a/b/time" = .timeSync ∧ deviceKey "p2g//a/b/time" = "/a/b" ∧
      channel .platformToGateway (deviceKey "p2g//a/b/time") (messageType "p2g//a/b/time") =
        "p2g//a/b/time" := by
  have hslashes : 2 ≤ "p2g//a/b/time".toList.count '/' := by decide
  have hdirection : direction? "p2g//a/b/time" = some .platformToGateway := by decide
  have htype : messageType "p2g//a/b/time" = .timeSync := by decide
  have hkey : deviceKey "p2g//a/b/time" = "/a/b" := by decide
  have hne : messageType "p2g//a/b/time" ≠ .unknown := by decide
  exact ⟨hslashes, hdirection, htype, hkey, exact_code.2.2.1 _ _ hslashes hdirection hne⟩

end DeviceLink.Topic
