import DeviceLink.Device
import DeviceLink.Proofs.Codec.Record
import DeviceLink.Proofs.Envelope
import DeviceLink.Proofs.Json.Narrowing
import DeviceLink.Reading
import DeviceLink.Settings
import DeviceLink.Transfer

/-! Stored models: each is read back as it was written, and the content of an envelope is read from
one text only. -/
namespace DeviceLink

open Json (Shape)

def Json.Shape.Keeps {α : Type} (shape : Shape α) (a : α) : Prop :=
  shape.parse (Text.encode (shape.render a)) = .ok a

/-- A span of whole milliseconds, not more than 64 bits can count. -/
def Duration.InMillis (d : Duration) : Prop :=
  d.nanoseconds.val % 1000000 = 0 ∧ d.millis < limit64

namespace Duration

theorem toNat_millis64 {d : Duration} (h : d.millis < limit64) : d.millis64.toNat = d.millis := by
  rw [millis64, if_pos h]
  exact UInt64.toNat_ofNat_of_lt' h

theorem ofMillis_millis64 {d : Duration} (h : d.InMillis) : ofMillis d.millis64 = d := by
  obtain ⟨hwhole, hlt⟩ := h
  have hbound := d.nanoseconds.isLt
  have hmillis := toNat_millis64 hlt
  have hparts : d.millis = d.seconds.toNat * 1000 + d.nanoseconds.val / 1000000 := rfl
  have hseconds : d.millis64 / 1000 = d.seconds := by
    apply UInt64.toNat_inj.mp
    rw [UInt64.toNat_div, hmillis]
    show d.millis / 1000 = _
    omega
  have hnanoseconds : d.millis64.toNat % 1000 * 1000000 = d.nanoseconds.val := by
    rw [hmillis]
    omega
  obtain ⟨seconds, nanoseconds⟩ := d
  exact congrArg₂ Duration.mk hseconds (Fin.ext hnanoseconds)

theorem millis_ofMillis (n : UInt64) : (ofMillis n).millis = n.toNat := by
  show (n / 1000).toNat * 1000 + n.toNat % 1000 * 1000000 / 1000000 = n.toNat
  rw [UInt64.toNat_div]
  show n.toNat / 1000 * 1000 + _ = _
  omega

theorem inMillis_ofMillis (n : UInt64) : (ofMillis n).InMillis := by
  refine ⟨Nat.mul_mod_left _ _, ?_⟩
  rw [millis_ofMillis]
  exact n.toNat_lt

theorem millis64_ofMillis (n : UInt64) : (ofMillis n).millis64 = n := by
  apply UInt64.toNat_inj.mp
  rw [toNat_millis64 (inMillis_ofMillis n).2, millis_ofMillis]

theorem readsBack_stored {d : Duration} (h : d.InMillis) (room : Nat) :
    stored.ReadsBack room d :=
  (Shape.readsBack_uint64 room _).refine (congrArg Except.ok (ofMillis_millis64 h))

end Duration

section ReadsBack

variable {room : Nat}

theorem RetryPolicy.readsBack_stored {p : RetryPolicy} (h : p.interval.InMillis) :
    stored.ReadsBack (room + 1) p := by
  refine Shape.ReadsBack.refine (Shape.readsBack_record ?_ ?_) rfl
  · decide
  · refine ⟨?_, ?_, trivial⟩
    · rintro _ ⟨⟩
      exact Shape.readsBack_uint32 room p.maxRetries
    · rintro _ ⟨⟩
      exact Duration.readsBack_stored h room

theorem RetryConfig.readsBack_stored (c : RetryConfig) : stored.ReadsBack (room + 1) c := by
  refine (RetryPolicy.readsBack_stored (Duration.inMillis_ofMillis c.interval)).refine ?_
  show Except.ok _ = Except.ok _
  rw [ofPolicy, policy, Duration.millis64_ofMillis]

theorem Reading.readsBack_stored (r : Reading) : stored.ReadsBack (room + 2) r := by
  refine Shape.ReadsBack.refine (Shape.readsBack_record ?_ ?_) rfl
  · decide
  · exact ⟨Shape.readsBack_text _ _, Shape.readsBack_texts _ _, Shape.readsBack_uint64 _ _, trivial⟩

theorem Feed.readsBack_stored (f : Feed) : stored.ReadsBack (room + 1) f := by
  refine Shape.ReadsBack.refine (Shape.readsBack_record ?_ ?_) ?_
  · decide
  · exact ⟨Shape.readsBack_text _ _, Shape.readsBack_text _ _,
      Shape.readsBack_token f.type.ofToken?_token _, Shape.readsBack_text _ _, trivial⟩
  · show (make? f.name f.reference f.type f.unit).mapError _ = _
    rw [make?, dif_neg f.name_ne, dif_neg f.reference_ne]
    rfl

theorem Attribute.readsBack_stored (a : Attribute) : stored.ReadsBack (room + 1) a := by
  refine Shape.ReadsBack.refine (Shape.readsBack_record ?_ ?_) ?_
  · decide
  · exact ⟨Shape.readsBack_text _ _, Shape.readsBack_token a.type.ofToken?_token _,
      Shape.readsBack_text _ _, trivial⟩
  · show (make? a.name a.type a.value).mapError _ = _
    rw [make?, dif_neg a.name_ne]
    rfl

theorem FileInformation.readsBack_shape (f : FileInformation) : shape.ReadsBack (room + 1) f := by
  refine Shape.ReadsBack.refine (Shape.readsBack_record ?_ ?_) rfl
  · decide
  · exact ⟨Shape.readsBack_text _ _, Shape.readsBack_uint64 _ _, Shape.readsBack_text _ _, trivial⟩

theorem RegisteredDevice.readsBack_stored (d : RegisteredDevice) :
    stored.ReadsBack (room + 1) d := by
  refine Shape.ReadsBack.refine (Shape.readsBack_record ?_ ?_) rfl
  · decide
  · exact ⟨Shape.readsBack_text _ _, Shape.readsBack_text _ _, Shape.readsBack_text _ _, trivial⟩

/-- The table of parameters is made again of its entries. -/
theorem Device.readsBack_stored (d : Device) : stored.ReadsBack (room + 3) d := by
  have hparameters : (Shape.dictionary ParameterName.ofToken? ParameterName.token .text).ReadsBack
      (room + 2) d.parameters.entries :=
    Shape.readsBack_dictionary (fun e _ => e.1.ofToken?_token) fun e _ => Shape.readsBack_text _ _
  have hfeeds : (Shape.list Feed.stored).ReadsBack (room + 2) d.feeds :=
    Shape.readsBack_list (fun f _ => f.readsBack_stored) fun _ _ => ⟨0x7B, _, rfl, by decide⟩
  have hattributes : (Shape.list Attribute.stored).ReadsBack (room + 2) d.attributes :=
    Shape.readsBack_list (fun a _ => a.readsBack_stored) fun _ _ => ⟨0x7B, _, rfl, by decide⟩
  refine Shape.ReadsBack.refine (Shape.readsBack_record ?_ ?_) ?_
  · decide
  · exact ⟨Shape.readsBack_text _ _, Shape.readsBack_text _ _, Shape.readsBack_text _ _,
      hparameters, hfeeds, hattributes, trivial⟩
  · show Except.ok _ = Except.ok _
    rw [ParameterTable.ofList_eq (List.Perm.refl _)]

end ReadsBack

namespace Envelope

def fields : Shape (String × String × Unit) :=
  .record (.required "content" .text (.required "channel" .text .nil))

private theorem acceptContent_eq_ok {text : String} {content : Octets} :
    acceptContent text = .ok content ↔ text = String.ofList (Text.Base64.encode content) := by
  constructor
  · intro h
    unfold acceptContent at h
    split at h
    · rename_i content' hdecode
      cases h
      rw [Text.Base64.encode_of_decode? hdecode, String.ofList_toList]
    · cases h
  · rintro rfl
    exact acceptContent_encode content

theorem narrows_fields : stored.Narrows fields fun raw e =>
    raw = (String.ofList (Text.Base64.encode e.content), e.channel, ()) := by
  have hcontent := (Shape.narrows_refl .text).refine acceptContent
    fun content => String.ofList (Text.Base64.encode content)
  have hchannel := Json.Row.narrows_nil.required (Shape.narrows_refl .text) "channel"
  have hrecord := (hchannel.required hcontent "content").record
  refine (hrecord.refine _ _).congr ?_
  rintro ⟨text, channel, ⟨⟩⟩ e
  constructor
  · rintro ⟨⟨content, channel', ⟨⟩⟩, ⟨⟨_, rfl, hcontent⟩, rfl, -⟩, ⟨⟩⟩
    exact congrArg (·, channel, ()) (acceptContent_eq_ok.mp hcontent)
  · intro h
    cases h
    exact ⟨(e.content, e.channel, ()), ⟨⟨_, rfl, acceptContent_encode e.content⟩, rfl, rfl⟩, rfl⟩

/-- An envelope is read exactly where its content stands in the one form that is written for it. -/
theorem parse_stored_iff {s : Octets} {e : Envelope} : stored.parse s = .ok e ↔
    fields.parse s = .ok (String.ofList (Text.Base64.encode e.content), e.channel, ()) := by
  rw [narrows_fields.parse_eq_ok]
  simp only [exists_eq_right]

private theorem toJson_stored (e : Envelope) : stored.toJson e =
    .object [("content", .string (String.ofList (Text.Base64.encode e.content))),
      ("channel", .string e.channel)] := rfl

end Envelope

/-- Every model is read back as it was stored, an envelope with its content in padded standard
base64. The text under which a content was stored is the only one that it is read from. -/
theorem stored_read_back :
    (∀ e, Envelope.stored.Keeps e) ∧ (∀ r, Reading.stored.Keeps r) ∧ (∀ f, Feed.stored.Keeps f) ∧
    (∀ a, Attribute.stored.Keeps a) ∧ (∀ f, FileInformation.shape.Keeps f) ∧
    (∀ d, RegisteredDevice.stored.Keeps d) ∧ (∀ d, Device.stored.Keeps d) ∧
    (∀ c, RetryConfig.stored.Keeps c) ∧
    (∀ p, p.interval.InMillis → RetryPolicy.stored.Keeps p) ∧
    (∀ e : Envelope, ∃ text digits pads,
      Envelope.stored.toJson e =
        .object [("content", .string (String.ofList text)), ("channel", .string e.channel)] ∧
      Text.Base64.IsStandard e.content text digits pads) ∧
    (∀ s e, Envelope.stored.parse s = .ok e ↔
      Envelope.fields.parse s =
        .ok (String.ofList (Text.Base64.encode e.content), e.channel, ())) ∧
    ∀ s s' e e' raw raw', Envelope.stored.parse s = .ok e → Envelope.stored.parse s' = .ok e' →
      Envelope.fields.parse s = .ok raw → Envelope.fields.parse s' = .ok raw' →
      e.content = e'.content → raw.1 = raw'.1 := by
  have hstandard : ∀ e : Envelope, ∃ text digits pads,
      Envelope.stored.toJson e =
        .object [("content", .string (String.ofList text)), ("channel", .string e.channel)] ∧
      Text.Base64.IsStandard e.content text digits pads := fun e =>
    ⟨_, _, _, e.toJson_stored, Text.Base64.isStandard_encode e.content⟩
  have honly : ∀ s s' e e' raw raw', Envelope.stored.parse s = .ok e →
      Envelope.stored.parse s' = .ok e' → Envelope.fields.parse s = .ok raw →
      Envelope.fields.parse s' = .ok raw' → e.content = e'.content → raw.1 = raw'.1 := by
    intro s s' e e' raw raw' he he' hraw hraw' hcontent
    rw [Envelope.parse_stored_iff, hraw] at he
    rw [Envelope.parse_stored_iff, hraw'] at he'
    cases he
    cases he'
    show String.ofList (Text.Base64.encode e.content) = _
    rw [hcontent]
  exact ⟨Envelope.parse_stored, fun r => r.readsBack_stored.parse_render,
    fun f => f.readsBack_stored.parse_render, fun a => a.readsBack_stored.parse_render,
    fun f => f.readsBack_shape.parse_render, fun d => d.readsBack_stored.parse_render,
    fun d => d.readsBack_stored.parse_render, fun c => c.readsBack_stored.parse_render,
    fun p hp => (RetryPolicy.readsBack_stored hp).parse_render, hstandard,
    fun _ _ => Envelope.parse_stored_iff, honly⟩

def Envelope.objectText : Octets := Text.encode "\x7b\"content\":\"AP8=\",\"channel\":\"a\"\x7d"

def Envelope.arrayText : Octets := Text.encode "[\"\\u0041P8=\",\"b\"]"

theorem stored_read_back_escaped :
    (⟨1, 500000000⟩ : Duration).InMillis ∧ RetryPolicy.stored.Keeps ⟨7, ⟨1, 500000000⟩⟩ ∧
      Envelope.stored.parse Envelope.objectText = .ok ⟨"a", [0, 255]⟩ ∧
      Envelope.stored.parse Envelope.arrayText = .ok ⟨"b", [0, 255]⟩ ∧
      ∃ raw raw', Envelope.fields.parse Envelope.objectText = .ok raw ∧
        Envelope.fields.parse Envelope.arrayText = .ok raw' ∧ raw.1 = raw'.1 := by
  obtain ⟨-, -, -, -, -, -, -, -, hpolicy, -, hiff, honly⟩ := stored_read_back
  have hmillis : (⟨1, 500000000⟩ : Duration).InMillis := ⟨rfl, by decide⟩
  have hobject : Envelope.stored.parse Envelope.objectText = .ok ⟨"a", [0, 255]⟩ := by
    decide +kernel
  have harray : Envelope.stored.parse Envelope.arrayText = .ok ⟨"b", [0, 255]⟩ := by
    decide +kernel
  have hfirst := (hiff _ _).mp hobject
  have hsecond := (hiff _ _).mp harray
  exact ⟨hmillis, hpolicy _ hmillis, hobject, harray, _, _, hfirst, hsecond,
    honly _ _ _ _ _ _ hobject harray hfirst hsecond rfl⟩

end DeviceLink
