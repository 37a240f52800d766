import DeviceLink.Proofs.Codec.Elements
import DeviceLink.Proofs.Json.Legible
import DeviceLink.Proofs.Json.Quoted

/-! Bare texts of subdevices: a gateway takes what looks like JSON for JSON, so that only some texts
are read at the end as they were sent. -/
namespace DeviceLink.Subdevice

open Text

/-- The kinds of messages whose content is a bare text, with the areas that read them. -/
def bareKinds : List (Area × MessageType) :=
  [(.fileManagement, .fileUploadAbort), (.fileManagement, .fileUrlDownloadInit),
    (.fileManagement, .fileUrlDownloadAbort), (.firmwareUpdate, .firmwareUpdateInstall)]

/-- A text that is the same behind a gateway, quotes apart: no JSON at all, a string literal without
escapes and without white space around it, or another value that is written as it stands there and
that is not too deep for the object around it. -/
inductive KeptByGateway (c : String) : Prop
  | text : (∀ v, Json.parse (encode c) ≠ .ok v) → KeptByGateway c
  | literal (s : String) :
    Json.parse (encode c) = .ok (.string s) → c = "\"" ++ s ++ "\"" → KeptByGateway c
  | value (v : Json) : Json.parse (encode c) = .ok v → (∀ s, v ≠ .string s) →
    Json.Legible 126 v → removeQuotes v.reread.text = removeQuotes c → KeptByGateway c

section Kinds

variable {a : Area} {t : MessageType}

theorem bareKinds_spec (h : (a, t) ∈ bareKinds) :
    t ∈ types ∧ t ≠ .fileBinaryResponse ∧ .ofToken t.token = t := by
  unfold bareKinds at h
  simp only [List.mem_cons, List.not_mem_nil, or_false, Prod.mk.injEq] at h
  rcases h with ⟨-, rfl⟩ | ⟨-, rfl⟩ | ⟨-, rfl⟩ | ⟨-, rfl⟩ <;> decide

theorem readAs_bare (h : (a, t) ∈ bareKinds) :
    ∃ (field : String) (message : String → Message), Function.Injective message ∧
      ∀ channel content, Topic.messageType channel = t →
        a.readAs t ⟨channel, content⟩ =
          Payload.scalar field ⟨channel, content⟩ >>= fun s => .ok (message s) := by
  unfold bareKinds at h
  simp only [List.mem_cons, List.not_mem_nil, or_false, Prod.mk.injEq] at h
  rcases h with ⟨rfl, rfl⟩ | ⟨rfl, rfl⟩ | ⟨rfl, rfl⟩ | ⟨rfl, rfl⟩
  · exact ⟨"name", .fileUploadAbort, fun _ _ => Message.fileUploadAbort.inj,
      fun channel content he =>
        Area.readAs_eq (a := .fileManagement) (e := ⟨channel, content⟩) he rfl⟩
  · exact ⟨"file url", .fileUrlDownloadInit, fun _ _ => Message.fileUrlDownloadInit.inj,
      fun channel content he =>
        Area.readAs_eq (a := .fileManagement) (e := ⟨channel, content⟩) he rfl⟩
  · exact ⟨"file url", .fileUrlDownloadAbort, fun _ _ => Message.fileUrlDownloadAbort.inj,
      fun channel content he =>
        Area.readAs_eq (a := .fileManagement) (e := ⟨channel, content⟩) he rfl⟩
  · exact ⟨"file name", .firmwareUpdateInstall, fun _ _ => Message.firmwareUpdateInstall.inj,
      fun channel content he =>
        Area.readAs_eq (a := .firmwareUpdate) (e := ⟨channel, content⟩) he rfl⟩

theorem scalar_encode (field channel s : String) : Payload.scalar field ⟨channel, encode s⟩ =
    if removeQuotes s = "" then .error (.missingField field) else .ok (removeQuotes s) := by
  unfold Payload.scalar Payload.text Payload.require
  rw [decode?_encode]
  dsimp only [bind, Except.bind]
  split_ifs <;> rfl

section Readers

variable {channel : String} (h : (a, t) ∈ bareKinds) (hchannel : Topic.messageType channel = t)
  (s s' : String)

include h hchannel

/-- Of a bare text only what is not a quote is looked at. -/
theorem parseAs_bare (heq : removeQuotes s = removeQuotes s') :
    a.parseAs t ⟨channel, encode s⟩ = a.parseAs t ⟨channel, encode s'⟩ := by
  obtain ⟨field, message, -, hread⟩ := readAs_bare h
  rw [Area.parseAs, Area.parseAs, hread _ _ hchannel, hread _ _ hchannel, scalar_encode,
    scalar_encode, heq]

theorem value_parseAs_bare : (a.parseAs t ⟨channel, encode s⟩).value =
    (a.parseAs t ⟨channel, encode s'⟩).value ↔ removeQuotes s = removeQuotes s' := by
  constructor
  · intro heq
    obtain ⟨field, message, hinjective, hread⟩ := readAs_bare h
    have hvalue : ∀ s, (a.parseAs t ⟨channel, encode s⟩).value =
        if removeQuotes s = "" then none else some (message (removeQuotes s)) := by
      intro s
      rw [Area.parseAs, hread _ _ hchannel, scalar_encode]
      split_ifs <;> rfl
    rw [hvalue, hvalue] at heq
    split_ifs at heq with hs hs'
    · rw [hs, hs']
    · exact hinjective (Option.some.inj heq)
  · intro heq
    rw [parseAs_bare h hchannel s s' heq]

end Readers

end Kinds

section Passing

variable {gateway key : String} {t : MessageType} {content : Octets}

theorem reread_pair (v : Json) :
    (Json.object [(deviceName, .string key), (payloadName, v)]).reread =
      .object [(deviceName, .string key), (payloadName, v.reread)] := by
  rw [Json.reread_object]
  exact congrArg Json.object sorted_pair.ofList_eq

theorem legible_pair {room : Nat} {v : Json} : Json.Legible (room + 1)
    (.object [(deviceName, .string key), (payloadName, v)]) ↔ Json.Legible room v := by
  constructor
  · intro h
    cases h with
    | object hmembers => exact hmembers (payloadName, v) (by simp)
  · intro h
    exact .object (List.forall_mem_cons.mpr ⟨.string key, List.forall_mem_singleton.mpr h⟩)

/-- Content that leaves room for the object around it comes out of it as what its value, once that
is read again, unpacks to. -/
theorem parse_passed (hkey : key ≠ "") (ht : t ∈ types) {arrived : Octets}
    (hlegible : Json.Legible 126 (contentToJson (.ofToken t.token) content))
    (hback : Unpacks (.ofToken t.token) (contentToJson (.ofToken t.token) content).reread arrived) :
    (parse ⟨Topic.channel .gatewayToPlatform gateway t,
        (carried key (.ofToken t.token) content).encode⟩).value =
      [⟨Topic.channel .deviceToPlatform key t, arrived⟩] := by
  have htype := Topic.messageType_channel .gatewayToPlatform gateway t
  have hjson : Payload.json ⟨Topic.channel .gatewayToPlatform gateway t,
      (carried key (.ofToken t.token) content).encode⟩ = .ok (.object
        [(deviceName, .string key),
          (payloadName, (contentToJson (.ofToken t.token) content).reread)]) := by
    rw [← reread_pair]
    exact Payload.json_encode_reread (legible_pair.mpr hlegible)
  have hbundles : Bundles ⟨Topic.channel .gatewayToPlatform gateway t,
      (carried key (.ofToken t.token) content).encode⟩ .deviceToPlatform [_] :=
    ⟨Or.inl ⟨Topic.direction?_channel _ _ _, rfl⟩,
      htype.trans_ne (MessageType.ofToken_ne_unknown (ne_unknown ht)), _, hjson, .object _⟩
  have hdelivers : Delivers .deviceToPlatform (.ofToken t.token) (.object
      [(deviceName, .string key),
        (payloadName, (contentToJson (.ofToken t.token) content).reread)])
      ⟨Topic.channel .deviceToPlatform key t, arrived⟩ :=
    ⟨_, key, _, rfl, rfl, hkey, rfl, (Topic.channel_ofToken _ _ (ne_unknown ht)).symm,
      Topic.deviceKey_channel _ _ _, hback⟩
  rw [parse_of_bundles hbundles]
  simp only [htype, List.map_cons, List.map_nil, unwrap_eq_ok.mpr hdelivers]
  rfl

theorem contentToJson_of_parse {type : MessageType} {v : Json}
    (hchunk : type ≠ .fileBinaryResponse) (hparse : Json.parse content = .ok v) :
    contentToJson type content = v := by
  have hne : content ≠ [] := by
    rintro rfl
    exact not_parse_nil v hparse
  rw [contentToJson, if_neg hchunk, if_neg hne, hparse]

/-- Content that is nested too deep for the object around it is lost. -/
theorem parse_deep {v : Json} (hchunk : .ofToken t.token ≠ MessageType.fileBinaryResponse)
    (hparse : Json.parse content = .ok v) (hdeep : ¬ Json.Legible 126 v) :
    (parse ⟨Topic.channel .gatewayToPlatform gateway t,
        (carried key (.ofToken t.token) content).encode⟩).value = [] := by
  have hcarried : carried key (.ofToken t.token) content =
      .object [(deviceName, .string key), (payloadName, v)] := by
    rw [carried, contentToJson_of_parse hchunk hparse]
  have hlegible : Json.Legible (Json.maxDepth + 1) (carried key (.ofToken t.token) content) := by
    rw [hcarried]
    exact legible_pair.mpr (Json.legible_of_parse hparse)
  have hordered : Json.Ordered (carried key (.ofToken t.token) content) := by
    rw [hcarried]
    exact ordered_pair (Json.ordered_of_parse hparse)
  have hroom : ¬ Json.Legible Json.maxDepth (carried key (.ofToken t.token) content) := by
    rw [hcarried]
    exact fun h => hdeep (legible_pair.mp h)
  have hrefused := Json.not_parse_deep hlegible hordered hroom
  apply parse_of_not_bundles
  rintro inner items ⟨-, -, v', hjson, -⟩
  have hread := Payload.json_eq_ok.mp hjson
  dsimp only at hread
  exact hrefused v' hread

end Passing

section Texts

variable {key c : String} {t : MessageType}

theorem reread_ne_string {v : Json} (h : ∀ s, v ≠ .string s) (s : String) :
    v.reread ≠ .string s := by
  cases v with
  | string s' => exact absurd rfl (h s')
  | number x => cases x <;> simp [Json.reread]
  | _ => simp [Json.reread]

def carrier (gateway key : String) (t : MessageType) (c : String) : Envelope :=
  ⟨Topic.channel .gatewayToPlatform gateway t,
    (carried key (.ofToken t.token) (encode c)).encode⟩

section Arrivals

variable (gateway : String) (hkey : key ≠ "") (ht : t ∈ types)
  (hchunk : .ofToken t.token ≠ MessageType.fileBinaryResponse)

include hkey ht hchunk

theorem parse_carrier_text (hc : c ≠ "") (h : ∀ v, Json.parse (encode c) ≠ .ok v) :
    (parse (carrier gateway key t c)).value =
      [⟨Topic.channel .deviceToPlatform key t, encode c⟩] := by
  have hne : encode c ≠ [] := fun hnil => hc (encode_inj.mp hnil)
  have hcontent : contentToJson (.ofToken t.token) (encode c) = .string c := by
    rw [contentToJson, if_neg hchunk, if_neg hne]
    split
    · exact absurd ‹_› (h _)
    · rw [decodeLossy_encode]
  refine parse_passed hkey ht ?_ ?_
  · rw [hcontent]
    exact .string c
  · rw [hcontent]
    exact .text c hchunk

theorem parse_carrier_string {s : String} (h : Json.parse (encode c) = .ok (.string s)) :
    (parse (carrier gateway key t c)).value =
      [⟨Topic.channel .deviceToPlatform key t, encode s⟩] := by
  refine parse_passed hkey ht ?_ ?_
  · rw [contentToJson_of_parse hchunk h]
    exact .string s
  · rw [contentToJson_of_parse hchunk h]
    exact .text s hchunk

theorem parse_carrier_value {v : Json} (h : Json.parse (encode c) = .ok v)
    (hv : ∀ s, v ≠ .string s) (hroom : Json.Legible 126 v) :
    (parse (carrier gateway key t c)).value =
      [⟨Topic.channel .deviceToPlatform key t, encode v.reread.text⟩] := by
  refine parse_passed hkey ht ?_ ?_
  · rw [contentToJson_of_parse hchunk h]
    exact hroom
  · rw [contentToJson_of_parse hchunk h]
    exact .value hchunk (reread_ne_string hv)

/-- Either nothing comes out of the carrier, or one text, from which the one that was sent differs
in its quotes at most exactly if it is kept. -/
theorem parse_carrier_cases (hc : c ≠ "") :
    (parse (carrier gateway key t c)).value = [] ∧ ¬ KeptByGateway c ∨
      ∃ s, (parse (carrier gateway key t c)).value =
          [⟨Topic.channel .deviceToPlatform key t, encode s⟩] ∧
        (KeptByGateway c ↔ removeQuotes s = removeQuotes c) := by
  cases hparse : Json.parse (encode c) with
  | error cause =>
    have hno : ∀ v, Json.parse (encode c) ≠ .ok v := fun v hv => by cases hparse.symm.trans hv
    exact Or.inr ⟨c, parse_carrier_text gateway hkey ht hchunk hc hno, iff_of_true (.text hno) rfl⟩
  | ok v =>
    have hread : ∀ {v'}, Json.parse (encode c) = .ok v' → v' = v :=
      fun hv' => Except.ok.inj (hv'.symm.trans hparse)
    by_cases hstring : ∃ s, v = .string s
    · obtain ⟨s, rfl⟩ := hstring
      refine Or.inr ⟨s, parse_carrier_string gateway hkey ht hchunk hparse, ?_⟩
      rw [Json.removeQuotes_eq_iff hparse]
      constructor
      · intro hkept
        cases hkept with
        | text hno => exact absurd hparse (hno _)
        | literal s' hs' hliteral => exact Json.string.inj (hread hs') ▸ hliteral
        | value v' hv' hne => exact absurd (hread hv') (hne s)
      · exact .literal s hparse
    · have hne : ∀ s, v ≠ .string s := fun s hs => hstring ⟨s, hs⟩
      have hkept : KeptByGateway c ↔
          Json.Legible 126 v ∧ removeQuotes v.reread.text = removeQuotes c := by
        constructor
        · intro hkept
          cases hkept with
          | text hno => exact absurd hparse (hno _)
          | literal s' hs' => exact absurd (hread hs').symm (hne s')
          | value v' hv' _ hroom hquotes => exact hread hv' ▸ ⟨hroom, hquotes⟩
        · exact fun h => .value v hparse hne h.1 h.2
      by_cases hroom : Json.Legible 126 v
      · exact Or.inr ⟨_, parse_carrier_value gateway hkey ht hchunk hparse hne hroom,
          hkept.trans (and_iff_right hroom)⟩
      · exact Or.inl ⟨parse_deep hchunk hparse hroom, fun h => hroom (hkept.mp h).1⟩

end Arrivals

end Texts

/-- A bare text that a gateway carries is read at the end as it was sent exactly if it is kept: if
it is no JSON, a plain string literal, or another value that stands there as it is written. Any
other text is read as a different one, or lost. -/
theorem bare_text_through_gateway {gateway key c : String} {a : Area} {t : MessageType}
    (hgateway : gateway ≠ "") (hkey : key ≠ "") (hkind : (a, t) ∈ bareKinds) (hc : c ≠ "") :
    ∃ w, (Area.gatewaySubdevice.make gateway (.gatewaySubdevice
        ⟨Topic.channel .deviceToPlatform key t, encode c⟩)).value = some w ∧
      (KeptByGateway c → ∃ u, (parse w).value = [u] ∧
        u.channel = Topic.channel .deviceToPlatform key t ∧
        a.parseAs t u = a.parseAs t ⟨Topic.channel .deviceToPlatform key t, encode c⟩) ∧
      (¬ KeptByGateway c → ∀ u, (parse w).value = [u] → (a.parseAs t u).value ≠
        (a.parseAs t ⟨Topic.channel .deviceToPlatform key t, encode c⟩).value) := by
  obtain ⟨ht, hchunk, htoken⟩ := bareKinds_spec hkind
  have hchunk' : .ofToken t.token ≠ MessageType.fileBinaryResponse := htoken.trans_ne hchunk
  have hchannel : Topic.messageType (Topic.channel .deviceToPlatform key t) = t :=
    (Topic.messageType_channel _ _ _).trans htoken
  refine ⟨carrier gateway key t c, Area.make_eq_some.mpr (wrap_channel hgateway hkey ht), ?_⟩
  rcases parse_carrier_cases gateway hkey ht hchunk' hc with
    ⟨hlost, hnot⟩ | ⟨s, hs, hkept⟩
  · refine ⟨fun h => absurd h hnot, fun _ u hu => ?_⟩
    rw [hlost] at hu
    cases hu
  · refine ⟨fun h => ⟨_, hs, rfl, parseAs_bare hkind hchannel s c (hkept.mp h)⟩,
      fun hnot u hu => ?_⟩
    rw [hs] at hu
    rw [← (List.cons.inj hu).1, Ne, value_parseAs_bare hkind hchannel]
    exact fun hquotes => hnot (hkept.mpr hquotes)

theorem bare_text_through_gateway_name :
    KeptByGateway "a\".bin" ∧ ∃ w u, (Area.gatewaySubdevice.make "GW" (.gatewaySubdevice
        ⟨"d2p/a/b/firmware_update_install", encode "a\".bin"⟩)).value = some w ∧
      (parse w).value = [u] ∧ Area.firmwareUpdate.parseAs .firmwareUpdateInstall u =
        ⟨some (.firmwareUpdateInstall "a.bin"), []⟩ := by
  have herror : Json.parse (encode "a\".bin") = .error .malformed := by
    unfold Json.parse Json.maxDepth Json.readValue
    rfl
  have hkept : KeptByGateway "a\".bin" := .text fun v hv => by cases herror.symm.trans hv
  have hkind : (Area.firmwareUpdate, MessageType.firmwareUpdateInstall) ∈ bareKinds := by decide
  obtain ⟨w, hmake, hread, -⟩ := bare_text_through_gateway (show "GW" ≠ "" by decide)
    (show "a/b" ≠ "" by decide) hkind (show "a\".bin" ≠ "" by decide)
  obtain ⟨u, hu, -, hparse⟩ := hread hkept
  exact ⟨hkept, w, u, hmake, hu, hparse.trans rfl⟩

private theorem parse_decimal :
    Json.parse (encode "1.50") = .ok (.number (.double ⟨0x3FF8000000000000⟩)) := by
  have hliteral : Json.Literal.read (encode "1.50") = .ok (⟨[1], some [5, 0], none⟩, []) := rfl
  have hnumber : Json.Literal.number? false ⟨[1], some [5, 0], none⟩ =
      some (.double ⟨0x3FF8000000000000⟩) := by decide +kernel
  have hread : Json.readNumber false (encode "1.50") =
      .ok (.double ⟨0x3FF8000000000000⟩, []) := by
    rw [Json.readNumber, hliteral]
    simp only [bind, Except.bind, hnumber]
  have hscalar : Json.readValue Json.maxDepth (encode "1.50") =
      Json.readScalar (encode "1.50") := Json.readValue_scalar (b := 0x31) (by decide) _ _
  rw [Json.parse, hscalar]
  show Json.readScalar (0x31 :: _) >>= Json.finish = _
  rw [Json.readScalar_digit (by decide)]
  show (Json.readNumber false (encode "1.50")).map _ >>= Json.finish = _
  rw [hread]
  rfl

/-- A file whose name looks like a number is another one behind the gateway. -/
theorem decimal_name_changed :
    ∃ w u, (Area.gatewaySubdevice.make "GW" (.gatewaySubdevice
        ⟨Topic.channel .deviceToPlatform "K" .fileUploadAbort, encode "1.50"⟩)).value = some w ∧
      (parse w).value = [u] ∧
      (Area.fileManagement.parseAs .fileUploadAbort u).value = some (.fileUploadAbort "1.5") ∧
      (Area.fileManagement.parseAs .fileUploadAbort
        ⟨Topic.channel .deviceToPlatform "K" .fileUploadAbort, encode "1.50"⟩).value =
          some (.fileUploadAbort "1.50") := by
  have htext : (Json.number (.double ⟨0x3FF8000000000000⟩)).reread.text = "1.5" := by
    decide +kernel
  have harrived := parse_carrier_value (t := .fileUploadAbort) "GW" (show "K" ≠ "" by decide)
    (by decide) (by decide) parse_decimal nofun (.double (by decide))
  rw [htext] at harrived
  exact ⟨carrier "GW" "K" .fileUploadAbort "1.50", _,
    Area.make_eq_some.mpr (wrap_channel (by decide) (by decide) (by decide)), harrived, rfl, rfl⟩

end DeviceLink.Subdevice
