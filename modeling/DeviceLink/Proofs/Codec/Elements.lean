import DeviceLink.Proofs.Codec.Reporting
import DeviceLink.Proofs.Codec.Subdevice

/-! Elements of a gateway's envelope: what each of them contributes, whatever stands beside it. -/
namespace DeviceLink.Subdevice

inductive HasElements : Json → List Json → Prop
  | array (items : List Json) : HasElements (.array items) items
  | object (members : List (String × Json)) : HasElements (.object members) [.object members]

/-- An envelope on a channel of a gateway, of a known kind, with elements that travel on in the
inner direction. -/
def Bundles (e : Envelope) (inner : Direction) (items : List Json) : Prop :=
  (Topic.direction? e.channel = some .gatewayToPlatform ∧ inner = .deviceToPlatform ∨
      Topic.direction? e.channel = some .platformToGateway ∧ inner = .platformToDevice) ∧
    Topic.messageType e.channel ≠ .unknown ∧
    ∃ v, Payload.json e = .ok v ∧ HasElements v items

/-- The content that a payload stands for: in a chunk the octets of which a string is the base64,
elsewhere a string itself or the text of another value. -/
inductive Unpacks (type : MessageType) : Json → Octets → Prop
  | chunk {s : String} {content : Octets} : type = .fileBinaryResponse →
    Text.Base64.encode content = s.toList → Unpacks type (.string s) content
  | text (s : String) : type ≠ .fileBinaryResponse → Unpacks type (.string s) (Text.encode s)
  | value {v : Json} : type ≠ .fileBinaryResponse → (∀ s, v ≠ .string s) → Unpacks type v v.encode

/-- An element that can be delivered: an object with a payload, and with the name of a device in a
string that is not empty. The payload of a chunk is a string in canonical base64. -/
def Deliverable (type : MessageType) (item : Json) : Prop :=
  ∃ members key v, item = .object members ∧
    Ascending.find? deviceName members = some (.string key) ∧ key ≠ "" ∧
    Ascending.find? payloadName members = some v ∧
    (type = .fileBinaryResponse → ∃ s content, v = .string s ∧
      Text.Base64.encode content = s.toList)

/-- The envelope that delivers an element: on the channel of the device that the element names, with
the content that its payload stands for. -/
def Delivers (inner : Direction) (type : MessageType) (item : Json) (u : Envelope) : Prop :=
  ∃ members key v, item = .object members ∧
    Ascending.find? deviceName members = some (.string key) ∧ key ≠ "" ∧
    Ascending.find? payloadName members = some v ∧
    u.channel = Topic.channel inner key type ∧ Topic.deviceKey u.channel = key ∧
    Unpacks type v u.content

section Items

variable {inner : Direction} {type : MessageType} {item v : Json} {u : Envelope}

theorem contentOfJson_eq_ok {content : Octets} :
    contentOfJson type v = .ok content ↔ Unpacks type v content := by
  constructor
  · intro h
    by_cases hchunk : type = .fileBinaryResponse
    · cases v with
      | string s =>
        simp only [contentOfJson, if_pos hchunk] at h
        split at h
        · rename_i decoded hdecode
          cases h
          exact .chunk hchunk (Text.Base64.encode_of_decode? hdecode)
        · cases h
      | _ =>
        simp only [contentOfJson, if_pos hchunk] at h
        cases h
    · by_cases hstring : ∃ s, v = .string s
      · obtain ⟨s, rfl⟩ := hstring
        simp only [contentOfJson, if_neg hchunk] at h
        cases h
        exact .text s hchunk
      · have hne : ∀ s, v ≠ .string s := fun s hs => hstring ⟨s, hs⟩
        rw [contentOfJson_value hchunk hne] at h
        cases h
        exact .value hchunk hne
  · intro h
    cases h with
    | chunk hchunk hencode =>
      simp only [contentOfJson, if_pos hchunk, ← hencode, Text.Base64.decode?_encode]
    | text s hchunk => exact if_neg hchunk
    | value hchunk hne => exact contentOfJson_value hchunk hne

theorem exists_unpacks_iff : (∃ content, Unpacks type v content) ↔
    (type = .fileBinaryResponse → ∃ s content, v = .string s ∧
      Text.Base64.encode content = s.toList) := by
  constructor
  · rintro ⟨content, h⟩ hchunk
    cases h with
    | chunk _ hencode => exact ⟨_, content, rfl, hencode⟩
    | text s hne => exact absurd hchunk hne
    | value hne => exact absurd hchunk hne
  · intro h
    by_cases hchunk : type = .fileBinaryResponse
    · obtain ⟨s, content, rfl, hencode⟩ := h hchunk
      exact ⟨content, .chunk hchunk hencode⟩
    · by_cases hstring : ∃ s, v = .string s
      · obtain ⟨s, rfl⟩ := hstring
        exact ⟨_, .text s hchunk⟩
      · exact ⟨_, .value hchunk fun s hs => hstring ⟨s, hs⟩⟩

theorem device_eq_some {key : String} :
    ((item.get? deviceName).bind Json.string?).filter (· ≠ "") = some key ↔
      ∃ members, item = .object members ∧
        Ascending.find? deviceName members = some (.string key) ∧ key ≠ "" := by
  have hstring : ∀ {w : Json}, w.string? = some key ↔ w = .string key := by
    intro w
    cases w <;> simp [Json.string?]
  rw [Option.filter_eq_some_iff, Option.bind_eq_some_iff, decide_eq_true_eq]
  simp only [hstring, exists_eq_right]
  cases item with
  | object members => simp [Json.get?]
  | _ => simp [Json.get?]

theorem unwrap_eq_ok : unwrap inner type item = .ok u ↔ Delivers inner type item u := by
  unfold unwrap
  constructor
  · intro h
    split at h
    · cases h
    · rename_i key hdevice
      obtain ⟨members, rfl, hkey, hne⟩ := device_eq_some.mp hdevice
      split at h
      · cases h
      · rename_i v hpayload
        obtain ⟨content, hcontent, h⟩ := bind_eq_ok.mp h
        cases h
        exact ⟨members, key, v, rfl, hkey, hne, hpayload, rfl, Topic.deviceKey_channel _ _ _,
          contentOfJson_eq_ok.mp hcontent⟩
  · rintro ⟨members, key, v, rfl, hkey, hne, hpayload, hchannel, -, hcontent⟩
    have hdevice := device_eq_some.mpr ⟨members, rfl, hkey, hne⟩
    have hget : (Json.object members).get? payloadName = some v := hpayload
    simp only [hdevice, hget, contentOfJson_eq_ok.mpr hcontent, bind, Except.bind, ← hchannel]

theorem exists_delivers_iff : (∃ u, Delivers inner type item u) ↔ Deliverable type item := by
  constructor
  · rintro ⟨u, members, key, v, rfl, hkey, hne, hpayload, -, -, hcontent⟩
    exact ⟨members, key, v, rfl, hkey, hne, hpayload, exists_unpacks_iff.mp ⟨_, hcontent⟩⟩
  · rintro ⟨members, key, v, rfl, hkey, hne, hpayload, hchunk⟩
    obtain ⟨content, hcontent⟩ := exists_unpacks_iff.mpr hchunk
    exact ⟨⟨Topic.channel inner key type, content⟩, members, key, v, rfl, hkey, hne, hpayload,
      rfl, Topic.deviceKey_channel _ _ _, hcontent⟩

end Items

section Envelopes

variable {e : Envelope} {inner : Direction} {items : List Json}

theorem innerDirection?_eq_some {direction? : Option Direction} :
    direction?.bind innerDirection? = some inner ↔
      direction? = some .gatewayToPlatform ∧ inner = .deviceToPlatform ∨
        direction? = some .platformToGateway ∧ inner = .platformToDevice := by
  cases direction? with
  | none => simp
  | some d => cases d <;> simp [innerDirection?, eq_comm]

private theorem hasElements_iff {v : Json} : HasElements v items ↔
    v = .array items ∨ ∃ members, v = .object members ∧ items = [.object members] := by
  constructor
  · intro h
    cases h with
    | array => exact Or.inl rfl
    | object members => exact Or.inr ⟨members, rfl, rfl⟩
  · rintro (rfl | ⟨members, rfl, rfl⟩)
    · exact .array items
    · exact .object members

theorem elements_iff_bundles : elements e = .ok (inner, items) ↔ Bundles e inner items := by
  unfold elements Bundles
  rw [← innerDirection?_eq_some]
  by_cases htype : Topic.messageType e.channel = .unknown
  · simp [htype]
  · rw [if_neg htype]
    cases (Topic.direction? e.channel).bind innerDirection? with
    | none => simp
    | some direction =>
      cases Payload.json e with
      | error cause => simp [bind, Except.bind]
      | ok v => cases v <;> simp [bind, Except.bind, hasElements_iff, htype, eq_comm]

/-- An envelope gives what its elements give each on its own. -/
theorem parse_of_bundles (h : Bundles e inner items) : (parse e).value =
    (items.map fun item =>
      (unwrap inner (Topic.messageType e.channel) item).toOption.toList).flatten := by
  unfold parse
  rw [elements_iff_bundles.mpr h]
  dsimp only
  rw [List.filterMap_map, List.filterMap_eq_flatMap_toList, List.flatMap_def]
  congr 2
  funext item
  rw [Function.comp_apply]
  cases unwrap inner (Topic.messageType e.channel) item <;> rfl

theorem parse_of_not_bundles (h : ∀ inner items, ¬ Bundles e inner items) :
    (parse e).value = [] := by
  unfold parse
  cases helements : elements e with
  | error cause => rfl
  | ok r => exact absurd (elements_iff_bundles.mp helements) (h _ _)

/-- What is kept and what is reported are together as many as the elements. -/
theorem kept_and_reported (h : Bundles e inner items) :
    (parse e).value.length + (parse e).log.length = items.length ∧
      ∀ entry ∈ (parse e).log, Area.gatewaySubdevice.IsReport entry := by
  have hreported := reported e
  unfold Reported at hreported
  rw [elements_iff_bundles.mpr h] at hreported
  obtain ⟨hkept, hdropped⟩ := hreported
  constructor
  · rw [← hkept.length_eq, ← hdropped.length_eq, ← List.length_eq_length_filter_add]
  · have hflip := List.Forall₂.flip hdropped
    exact forall_of_forall₂ hflip fun _ _ hentry => hentry.2

end Envelopes

/-- The envelope of a gateway is read element by element. An element that can be delivered gives one
envelope, any other none, as if it stood alone, and the result has all of these in order; each
element that gives none is reported. An envelope that has no elements gives nothing. -/
theorem read_element_by_element (e : Envelope) :
    (∀ inner items, Bundles e inner items →
      (∃ parts, (parse e).value = parts.flatten ∧
        List.Forall₂ (fun item part =>
          (Deliverable (Topic.messageType e.channel) item →
            ∃ u, part = [u] ∧ Delivers inner (Topic.messageType e.channel) item u) ∧
          (¬ Deliverable (Topic.messageType e.channel) item → part = []) ∧
          ∀ e', e'.channel = e.channel → Bundles e' inner [item] → (parse e').value = part)
            items parts) ∧
      (parse e).value.length + (parse e).log.length = items.length ∧
      ∀ entry ∈ (parse e).log, Area.gatewaySubdevice.IsReport entry) ∧
    ((∀ inner items, ¬ Bundles e inner items) → (parse e).value = []) := by
  refine ⟨fun inner items h => ⟨⟨_, parse_of_bundles h, ?_⟩, kept_and_reported h⟩,
    parse_of_not_bundles⟩
  rw [List.forall₂_map_right_iff, List.forall₂_same]
  intro item _
  refine ⟨fun hdeliverable => ?_, fun hnot => ?_, fun e' hchannel he' => ?_⟩
  · obtain ⟨u, hu⟩ := exists_delivers_iff.mpr hdeliverable
    refine ⟨u, ?_, hu⟩
    rw [unwrap_eq_ok.mpr hu]
    rfl
  · cases hunwrap : unwrap inner (Topic.messageType e.channel) item with
    | error cause => rfl
    | ok u => exact absurd (exists_delivers_iff.mp ⟨u, unwrap_eq_ok.mp hunwrap⟩) hnot
  · rw [parse_of_bundles he', hchannel]
    exact List.flatten_singleton

def mixedElements : List Json :=
  [.ofNat 7, .object [(deviceName, .string "a/b"), (payloadName, .string "AQI=")],
    .object [(deviceName, .string "K"), (payloadName, .string "AQI")]]

theorem json_mixedElements (channel : String) :
    Payload.json ⟨channel, (Json.array mixedElements).encode⟩ = .ok (.array mixedElements) := by
  apply Payload.json_encode
  · refine .array (List.forall_mem_cons.mpr ⟨.integer (by decide) (by decide), ?_⟩)
    exact List.forall_mem_cons.mpr ⟨whole_pair (.string _), List.forall_mem_singleton.mpr
      (whole_pair (.string _))⟩
  · refine .array (List.forall_mem_cons.mpr ⟨.number _, ?_⟩)
    exact List.forall_mem_cons.mpr ⟨ordered_pair (.string _), List.forall_mem_singleton.mpr
      (ordered_pair (.string _))⟩

private theorem not_deliverable_unpadded : ¬ Deliverable .fileBinaryResponse
    (.object [(deviceName, .string "K"), (payloadName, .string "AQI")]) := by
  rintro ⟨members, key, v, ⟨⟩, -, -, hpayload, hchunk⟩
  obtain ⟨s, content, rfl, hencode⟩ := hchunk rfl
  cases hpayload
  have hdecode : Text.Base64.decode? "AQI".toList = some content := by
    rw [← hencode, Text.Base64.decode?_encode]
  cases hdecode

theorem read_element_by_element_mixed :
    let e : Envelope := ⟨"p2g/GW/file_binary_response", (Json.array mixedElements).encode⟩
    Bundles e .platformToDevice mixedElements ∧
      (parse e).value = [⟨"p2d/a/b/file_binary_response", [1, 2]⟩] ∧ (parse e).log.length = 2 := by
  intro e
  have htype : Topic.messageType e.channel = .fileBinaryResponse := by decide
  have hbundles : Bundles e .platformToDevice mixedElements :=
    ⟨Or.inr ⟨by decide, rfl⟩, by decide, _, json_mixedElements _, .array _⟩
  obtain ⟨⟨parts, hvalue, hparts⟩, hcount, -⟩ := (read_element_by_element e).1 _ _ hbundles
  rw [htype] at hparts
  obtain ⟨first, _, ⟨-, hfirst, -⟩, hrest, rfl⟩ := List.forall₂_cons_left_iff.mp hparts
  obtain ⟨second, _, ⟨hsecond, -, -⟩, hlast, rfl⟩ := List.forall₂_cons_left_iff.mp hrest
  obtain ⟨third, _, ⟨-, hthird, -⟩, hnil, rfl⟩ := List.forall₂_cons_left_iff.mp hlast
  cases hnil
  have hdeliverable : Deliverable .fileBinaryResponse
      (.object [(deviceName, .string "a/b"), (payloadName, .string "AQI=")]) :=
    ⟨_, "a/b", _, rfl, rfl, by decide, rfl, fun _ => ⟨_, [1, 2], rfl, by decide⟩⟩
  obtain ⟨u, rfl, hdelivers⟩ := hsecond hdeliverable
  have hu : u = ⟨"p2d/a/b/file_binary_response", [1, 2]⟩ :=
    Except.ok.inj ((unwrap_eq_ok.mpr hdelivers).symm.trans rfl)
  rw [hfirst nofun, hthird not_deliverable_unpadded, hu] at hvalue
  rw [hvalue] at hcount
  exact ⟨hbundles, hvalue, Nat.add_left_cancel hcount⟩

end DeviceLink.Subdevice
