import DeviceLink.Proofs.Codec.Area
import DeviceLink.Proofs.Codec.Record
import DeviceLink.Proofs.Validity

/-! Readings, feeds and attributes in messages: a message is read as a whole or not at all, and
what is read holds all that the message says. -/
namespace DeviceLink

open Json (Shape)

theorem FeedType.ofToken?_eq_some {token : String} {t : FeedType} :
    ofToken? token = some t ↔ token = t.token := find?_name_eq_some ofToken?_token

theorem DataType.ofToken?_eq_some {token : String} {t : DataType} :
    ofToken? token = some t ↔ token = t.token := find?_name_eq_some ofToken?_token

section List

variable {ρ α : Type} {Makes : ρ → α → Prop} {Defective : ρ → Prop} {wrap : List α → Message}

/-- The message of what a list of data makes, element for element. -/
def ListMakes (Makes : ρ → α → Prop) (wrap : List α → Message) (l : List ρ) (m : Message) : Prop :=
  ∃ made, List.Forall₂ Makes l made ∧ m = wrap made

theorem wrap_mapM_eq_ok {make : ρ → Except CodecError α}
    (hmake : ∀ x a, make x = .ok a ↔ Makes x a) {l : List ρ} {m : Message} :
    (l.mapM make >>= fun made => .ok (wrap made)) = .ok m ↔ ListMakes Makes wrap l m := by
  constructor
  · intro h
    obtain ⟨made, hmade, h⟩ := bind_eq_ok.mp h
    cases h
    exact ⟨made, (mapM_eq_ok.mp hmade).imp fun x a => (hmake x a).mp, rfl⟩
  · rintro ⟨made, hmade, rfl⟩
    exact bind_eq_ok.mpr ⟨made, mapM_eq_ok.mpr (hmade.imp fun x a => (hmake x a).mpr), rfl⟩

theorem not_defective_of_listMakes (hmakes : ∀ x a, Makes x a → ¬ Defective x) (l : List ρ)
    (m : Message) (h : ListMakes Makes wrap l m) : ¬ ∃ x ∈ l, Defective x := by
  obtain ⟨made, hmade, -⟩ := h
  rintro ⟨x, hx, hdefective⟩
  exact forall_of_forall₂ hmade hmakes x hx hdefective

end List

theorem Payload.require_eq_error {field value : String} {c : CodecError}
    (h : require field value = .error c) : c = .missingField field := by
  unfold require at h
  split_ifs at h
  cases h
  rfl

namespace FeedRecord

/-- A record without a name or a reference. -/
def Defective (x : FeedRecord) : Prop := x.name = "" ∨ x.reference = ""

theorem not_defective_ofFeed (f : Feed) : ¬ (ofFeed f).Defective := f.not_defective_raw

theorem ofTokens?_eq_ok {x : FeedRecord} {f : Feed} :
    Feed.ofTokens? x.name x.reference x.type x.unit = .ok f ↔ x = ofFeed f := by
  constructor
  · intro h
    unfold Feed.ofTokens? at h
    cases htype : FeedType.ofToken? x.type with
    | none =>
      rw [htype] at h
      cases h
    | some t =>
      rw [htype] at h
      have htoken := FeedType.ofToken?_eq_some.mp htype
      have hraw := (Feed.make?_eq_ok (x := ⟨x.name, x.reference, t, x.unit⟩)).mp h
      obtain ⟨name, reference, type, unit⟩ := x
      cases hraw
      exact congrArg (FeedRecord.mk f.name f.reference · f.unit) htoken
  · rintro rfl
    unfold Feed.ofTokens? ofFeed
    rw [FeedType.ofToken?_token]
    exact (Feed.make?_eq_ok (x := f.raw)).mpr rfl

theorem toFeed_eq_ok {x : FeedRecord} {f : Feed} : x.toFeed = .ok f ↔ x = ofFeed f :=
  mapError_eq_ok.trans ofTokens?_eq_ok

theorem mapM_toFeed_eq_ok {records : List FeedRecord} {feeds : List Feed} :
    records.mapM toFeed = .ok feeds ↔ records = feeds.map ofFeed := by
  rw [mapM_eq_ok, ← forall₂_eq_iff]
  simp only [toFeed_eq_ok]

end FeedRecord

namespace AttributeRecord

def Defective (x : AttributeRecord) : Prop := x.name = ""

theorem not_defective_ofAttribute (a : Attribute) : ¬ (ofAttribute a).Defective := a.name_ne

theorem ofTokens?_eq_ok {x : AttributeRecord} {a : Attribute} :
    Attribute.ofTokens? x.name x.type x.value = .ok a ↔ x = ofAttribute a := by
  constructor
  · intro h
    unfold Attribute.ofTokens? at h
    cases htype : DataType.ofToken? x.type with
    | none =>
      rw [htype] at h
      cases h
    | some t =>
      rw [htype] at h
      have htoken := DataType.ofToken?_eq_some.mp htype
      have hraw := (Attribute.make?_eq_ok (x := ⟨x.name, t, x.value⟩)).mp h
      obtain ⟨name, type, value⟩ := x
      cases hraw
      exact congrArg (AttributeRecord.mk a.name · a.value) htoken
  · rintro rfl
    unfold Attribute.ofTokens? ofAttribute
    rw [DataType.ofToken?_token]
    exact (Attribute.make?_eq_ok (x := a.raw)).mpr rfl

theorem toAttribute_eq_ok {x : AttributeRecord} {a : Attribute} :
    x.toAttribute = .ok a ↔ x = ofAttribute a :=
  mapError_eq_ok.trans ofTokens?_eq_ok

theorem mapM_toAttribute_eq_ok {records : List AttributeRecord} {attributes : List Attribute} :
    records.mapM toAttribute = .ok attributes ↔ records = attributes.map ofAttribute := by
  rw [mapM_eq_ok, ← forall₂_eq_iff]
  simp only [toAttribute_eq_ok]

end AttributeRecord

namespace DeviceRecord

/-- One of the feeds or one of the attributes has a defect. -/
def Defective (x : DeviceRecord) : Prop :=
  (∃ f ∈ x.feeds, f.Defective) ∨ ∃ a ∈ x.attributes, a.Defective

structure Makes (x : DeviceRecord) (d : Device) : Prop where
  name : d.name = x.name
  key : d.key = x.key
  guid : d.guid = x.guid
  name_ne : x.name ≠ ""
  key_ne : x.key ≠ ""
  parameters : ∃ l, x.parameters.mapM toParameter = .ok l ∧ d.parameters = .ofList l
  feeds : x.feeds = d.feeds.map .ofFeed
  attributes : x.attributes = d.attributes.map .ofAttribute

theorem Makes.not_defective {x : DeviceRecord} {d : Device} (h : x.Makes d) : ¬ x.Defective := by
  unfold Defective
  rw [h.feeds, h.attributes]
  rintro (⟨f, hf, hdefective⟩ | ⟨a, ha, hdefective⟩)
  · obtain ⟨f, -, rfl⟩ := List.mem_map.mp hf
    exact FeedRecord.not_defective_ofFeed f hdefective
  · obtain ⟨a, -, rfl⟩ := List.mem_map.mp ha
    exact AttributeRecord.not_defective_ofAttribute a hdefective

theorem toDevice_eq_ok {x : DeviceRecord} {d : Device} : x.toDevice = .ok d ↔ x.Makes d := by
  constructor
  · intro h
    obtain ⟨⟨⟩, hname, h⟩ := bind_eq_ok.mp h
    obtain ⟨⟨⟩, hkey, h⟩ := bind_eq_ok.mp h
    obtain ⟨l, hl, h⟩ := bind_eq_ok.mp h
    obtain ⟨feeds, hfeeds, h⟩ := bind_eq_ok.mp h
    obtain ⟨attributes, hattributes, h⟩ := bind_eq_ok.mp h
    cases h
    exact ⟨rfl, rfl, rfl, Payload.require_eq_ok.mp hname, Payload.require_eq_ok.mp hkey,
      ⟨l, hl, rfl⟩, FeedRecord.mapM_toFeed_eq_ok.mp hfeeds,
      AttributeRecord.mapM_toAttribute_eq_ok.mp hattributes⟩
  · intro h
    obtain ⟨l, hl, hparameters⟩ := h.parameters
    have hname : Payload.require "device name" x.name = .ok () :=
      Payload.require_eq_ok.mpr h.name_ne
    have hkey : Payload.require "device key" x.key = .ok () := Payload.require_eq_ok.mpr h.key_ne
    have hfeeds := FeedRecord.mapM_toFeed_eq_ok.mpr h.feeds
    have hattributes := AttributeRecord.mapM_toAttribute_eq_ok.mpr h.attributes
    unfold toDevice
    simp only [hname, hkey, hl, hfeeds, hattributes, bind, Except.bind]
    rw [← h.name, ← h.key, ← h.guid, ← hparameters]

end DeviceRecord

namespace Data

/-- The reading that a member of a group stands for: all numbers of an array, or the text of
another value. -/
def MemberMakes (timestamp : UInt64) (m : String × Json) (r : Reading) : Prop :=
  r.reference = m.1 ∧ r.timestamp = timestamp ∧
    match m.2 with
    | .array items =>
      List.Forall₂ (fun v text => ∃ n, v = .number n ∧ text = String.ofList n.chars) items r.values
    | v => ∃ text, Value.ofJson? v = some text ∧ r.values = [text]

def GroupMakes (g : Json) (l : List Reading) : Prop :=
  ∃ members n, g = .object members ∧
    (Ascending.find? timestampName members).bind Json.natural? = some n ∧
    List.Forall₂ (MemberMakes (.ofNat n)) (members.filter fun m => m.1 ≠ timestampName) l

def FeedValuesMakes (v : Json) (m : Message) : Prop :=
  ∃ groups l, v = .array groups ∧ List.Forall₂ GroupMakes groups l ∧ m = .feedValues l.flatten

/-- A group has an empty array under the reference of a feed. -/
def FeedValuesDefective (v : Json) : Prop :=
  ∃ groups members name, v = .array groups ∧ .object members ∈ groups ∧
    (name, .array []) ∈ members ∧ name ≠ timestampName

theorem memberText_eq_ok {name text : String} {v : Json} :
    memberText name v = .ok text ↔ ∃ n, v = .number n ∧ text = String.ofList n.chars := by
  cases v with
  | number n =>
    constructor
    · rintro ⟨⟩
      exact ⟨n, rfl, rfl⟩
    · rintro ⟨_, ⟨⟩, rfl⟩
      rfl
  | _ => exact iff_of_false nofun fun ⟨_, h, _⟩ => nomatch h

theorem readingOf_eq_ok {timestamp : UInt64} {name : String} {v : Json} {r : Reading} :
    readingOf timestamp name v = .ok r ↔ MemberMakes timestamp (name, v) r := by
  cases v with
  | array items =>
    constructor
    · intro h
      obtain ⟨values, hvalues, h⟩ := bind_eq_ok.mp h
      have hraw := (Reading.ofValues?_eq_ok (x := ⟨name, values, timestamp⟩)).mp
        (mapError_eq_ok.mp h)
      cases hraw
      simp only [mapM_eq_ok, memberText_eq_ok] at hvalues
      exact ⟨rfl, rfl, hvalues⟩
    · rintro ⟨rfl, rfl, hvalues⟩
      have hmake := (Reading.ofValues?_eq_ok (x := r.raw)).mpr rfl
      have htexts : items.mapM (memberText r.reference) = .ok r.values :=
        mapM_eq_ok.mpr (hvalues.imp fun _ _ => memberText_eq_ok.mpr)
      exact bind_eq_ok.mpr ⟨r.values, htexts, mapError_eq_ok.mpr hmake⟩
  | _ =>
    dsimp only [readingOf, MemberMakes]
    split
    · rename_i text htext
      constructor
      · rintro ⟨⟩
        exact ⟨rfl, rfl, text, htext, rfl⟩
      · rintro ⟨rfl, rfl, _, hsome, hvalues⟩
        cases htext.symm.trans hsome
        obtain ⟨reference, value, more, timestamp⟩ := r
        cases hvalues
        rfl
    · rename_i hnone
      refine iff_of_false nofun ?_
      rintro ⟨-, -, _, hsome, -⟩
      cases hnone.symm.trans hsome

theorem readingsOfGroup_eq_ok {g : Json} {l : List Reading} :
    readingsOfGroup g = .ok l ↔ GroupMakes g l := by
  constructor
  · intro h
    unfold readingsOfGroup at h
    split at h
    · split at h
      · cases h
      · rename_i members _ n htime
        simp only [mapM_eq_ok, readingOf_eq_ok] at h
        exact ⟨members, n, rfl, htime, h⟩
    · cases h
  · rintro ⟨members, n, rfl, htime, hl⟩
    unfold readingsOfGroup
    simp only [htime, mapM_eq_ok, readingOf_eq_ok]
    exact hl

theorem readFeedValues_eq_ok {e : Envelope} {m : Message} :
    readFeedValues e = .ok m ↔ ∃ v, Payload.validated e = .ok v ∧ FeedValuesMakes v m := by
  have hreadings : ∀ v l, readings v = .ok l ↔
      ∃ groups parts, v = .array groups ∧ List.Forall₂ GroupMakes groups parts ∧
        l = parts.flatten := by
    intro v l
    cases v with
    | array groups =>
      constructor
      · intro h
        obtain ⟨parts, hparts, h⟩ := bind_eq_ok.mp h
        cases h
        simp only [mapM_eq_ok, readingsOfGroup_eq_ok] at hparts
        exact ⟨groups, parts, rfl, hparts, rfl⟩
      · rintro ⟨_, parts, ⟨⟩, hparts, rfl⟩
        have hread := mapM_eq_ok.mpr (hparts.imp fun _ _ => readingsOfGroup_eq_ok.mpr)
        exact bind_eq_ok.mpr ⟨parts, hread, rfl⟩
    | _ => exact iff_of_false nofun fun ⟨_, _, h, _⟩ => nomatch h
  constructor
  · intro h
    obtain ⟨v, hv, h⟩ := bind_eq_ok.mp h
    obtain ⟨l, hl, h⟩ := bind_eq_ok.mp h
    cases h
    obtain ⟨groups, parts, rfl, hparts, rfl⟩ := (hreadings v l).mp hl
    exact ⟨_, hv, groups, parts, rfl, hparts, rfl⟩
  · rintro ⟨_, hv, groups, parts, rfl, hparts, rfl⟩
    have hl := (hreadings _ _).mpr ⟨groups, parts, rfl, hparts, rfl⟩
    exact bind_eq_ok.mpr ⟨_, hv, bind_eq_ok.mpr ⟨_, hl, rfl⟩⟩

/-- The values of an empty array would be none, and a reading has one at least. -/
theorem not_defective_of_feedValuesMakes (v : Json) (m : Message) (h : FeedValuesMakes v m) :
    ¬ FeedValuesDefective v := by
  obtain ⟨groups, parts, rfl, hparts, rfl⟩ := h
  have hmember : ∀ timestamp m r, MemberMakes timestamp m r → m.2 ≠ .array [] := by
    rintro timestamp ⟨name, v⟩ r ⟨-, -, hvalues⟩ rfl
    cases List.forall₂_nil_left_iff.mp hvalues
  have hgroup : ∀ g l, GroupMakes g l → ∀ members, g = .object members →
      ∀ m ∈ members, m.1 ≠ timestampName → m.2 ≠ .array [] := by
    rintro _ l ⟨members, n, rfl, -, hl⟩ _ ⟨⟩ m hm hname
    have hmem : m ∈ members.filter fun m => m.1 ≠ timestampName :=
      List.mem_filter.mpr ⟨hm, decide_eq_true hname⟩
    exact forall_of_forall₂ hl (hmember _) m hmem
  rintro ⟨_, members, name, ⟨⟩, hmem, hm, hname⟩
  exact forall_of_forall₂ hparts hgroup _ hmem members rfl _ hm hname rfl

private theorem addReading_eq_error {groups : Groups} {r : Reading} {c : CodecError}
    (h : addReading groups r = .error c) :
    c = .missingField "reading reference" ∨
      c = .invalidField "reading reference" (.reserved timestampName) := by
  unfold addReading at h
  rcases bind_eq_error.mp h with hreference | ⟨⟨⟩, -, h⟩
  · exact .inl (Payload.require_eq_error hreference)
  · split_ifs at h with hname hvalues
    · cases h
      exact .inr rfl
    · exact absurd hvalues (List.cons_ne_nil _ _)

/-- The causes for which readings are not sent: one without values is not among them. -/
theorem payload_feedValues_eq_error {readings : List Reading} {c : CodecError}
    (h : payload (.feedValues readings) = .error c) :
    c = .missingField "readings" ∨ c = .missingField "reading reference" ∨
      c = .invalidField "reading reference" (.reserved timestampName) := by
  rcases bind_eq_error.mp h with hjson | ⟨_, -, ⟨⟩⟩
  unfold feedValuesJson at hjson
  split_ifs at hjson
  · cases hjson
    exact .inl rfl
  · rcases bind_eq_error.mp hjson with hadd | ⟨_, -, ⟨⟩⟩
    obtain ⟨r, -, groups, hr⟩ := exists_error_of_foldlM hadd
    exact .inr (addReading_eq_error hr)

theorem write_feedValues_ne_error (key : String) (readings : List Reading) :
    Area.data.write key (.feedValues readings) ≠ .error (.missingField "reading values") := by
  intro h
  have hne : ∀ field, CodecError.missingField "reading values" = .missingField field →
      "reading values" = field := fun _ => CodecError.missingField.inj
  rcases bind_eq_error.mp h with hkey | ⟨⟨⟩, -, h⟩
  · exact absurd (hne _ (Payload.require_eq_error hkey)) (by decide)
  · rcases bind_eq_error.mp h with hpayload | ⟨_, -, ⟨⟩⟩
    rcases payload_feedValues_eq_error hpayload with hcause | hcause | ⟨⟨⟩⟩
    · exact absurd (hne _ hcause) (by decide)
    · exact absurd (hne _ hcause) (by decide)

end Data

namespace Area

/-- A message of the kind that is asked for is guarded by what its reader takes from it. -/
theorem guards_parseAs {ρ : Type} {a : Area} {t : MessageType} {e : Envelope}
    (read : Envelope → Except CodecError Message) (hreader : a.reader? t = some read)
    {raw : Except CodecError ρ} {Makes : ρ → Message → Prop} {Defective : ρ → Prop}
    (hread : ∀ m, read e = .ok m ↔ ∃ x, raw = .ok x ∧ Makes x m)
    (hmakes : ∀ x m, Makes x m → ¬ Defective x) :
    Guards (fun x => a.messageType e.channel = t ∧ raw = .ok x)
      (fun m => (a.parseAs t e).value = some m) Makes Defective := by
  apply Guards.of
  · exact fun x y hx hy => Except.ok.inj (hx.2.symm.trans hy.2)
  · intro m
    rw [parseAs_eq_some hreader, hread]
    simp only [and_assoc, exists_and_left]
  · exact hmakes

end Area

namespace Data

theorem typed_bind_eq_ok {ρ α : Type} {Makes : ρ → α → Prop} {wrap : List α → Message}
    {shape : Shape (List ρ)} {make : ρ → Except CodecError α}
    (hmake : ∀ x a, make x = .ok a ↔ Makes x a) {e : Envelope} {m : Message} :
    (Payload.typed shape e >>= fun l => l.mapM make >>= fun made => .ok (wrap made)) = .ok m ↔
      ∃ l, Payload.typed shape e = .ok l ∧ ListMakes Makes wrap l m := by
  rw [bind_eq_ok]
  simp only [wrap_mapM_eq_ok hmake]

theorem guards_feedRegistration (e : Envelope) :
    Guards (fun l => Area.data.messageType e.channel = .feedRegistration ∧
        Payload.typed (.list FeedRecord.shape) e = .ok l)
      (fun m => (Area.data.parseAs .feedRegistration e).value = some m)
      (ListMakes (fun x f => x = .ofFeed f) .feedRegistration) fun l => ∃ x ∈ l, x.Defective := by
  apply Area.guards_parseAs readFeedRegistration rfl
  · exact fun m => typed_bind_eq_ok fun _ _ => FeedRecord.toFeed_eq_ok
  · apply not_defective_of_listMakes
    rintro _ f rfl
    exact FeedRecord.not_defective_ofFeed f

theorem guards_attributeRegistration (e : Envelope) :
    Guards (fun l => Area.data.messageType e.channel = .attributeRegistration ∧
        Payload.typed (.list AttributeRecord.shape) e = .ok l)
      (fun m => (Area.data.parseAs .attributeRegistration e).value = some m)
      (ListMakes (fun x a => x = .ofAttribute a) .attributeRegistration)
      fun l => ∃ x ∈ l, x.Defective := by
  apply Area.guards_parseAs readAttributeRegistration rfl
  · exact fun m => typed_bind_eq_ok fun _ _ => AttributeRecord.toAttribute_eq_ok
  · apply not_defective_of_listMakes
    rintro _ a rfl
    exact AttributeRecord.not_defective_ofAttribute a

theorem guards_feedValues (e : Envelope) :
    Guards (fun v => Area.data.messageType e.channel = .feedValues ∧ Payload.validated e = .ok v)
      (fun m => (Area.data.parseAs .feedValues e).value = some m) FeedValuesMakes
      FeedValuesDefective :=
  Area.guards_parseAs readFeedValues rfl (fun _ => readFeedValues_eq_ok)
    not_defective_of_feedValuesMakes

end Data

namespace GatewayRegistration

def DevicesMake (l : List DeviceRecord) (m : Message) : Prop :=
  l ≠ [] ∧ ListMakes DeviceRecord.Makes .deviceRegistration l m

theorem readDevices_eq_ok {e : Envelope} {m : Message} : readDevices e = .ok m ↔
    ∃ l, Payload.typed DeviceRecord.list e = .ok l ∧ DevicesMake l m := by
  unfold readDevices DevicesMake
  rw [bind_eq_ok]
  refine exists_congr fun l => and_congr_right fun _ => ?_
  rw [← wrap_mapM_eq_ok fun _ _ => DeviceRecord.toDevice_eq_ok]
  cases l with
  | nil => exact iff_of_false nofun fun h => h.1 rfl
  | cons x l => exact (and_iff_right (List.cons_ne_nil x l)).symm

private theorem guards_deviceRegistration (e : Envelope) :
    Guards (fun l => Area.gatewayRegistration.messageType e.channel = .deviceRegistration ∧
        Payload.typed DeviceRecord.list e = .ok l)
      (fun m => (Area.gatewayRegistration.parseAs .deviceRegistration e).value = some m) DevicesMake
      fun l => ∃ x ∈ l, x.Defective := by
  apply Area.guards_parseAs readDevices rfl
  · exact fun m => readDevices_eq_ok
  · exact fun l m h => not_defective_of_listMakes (fun _ _ hx => hx.not_defective) l m h.2

end GatewayRegistration

/-- No reading is without a value, no feed without name and reference, and no attribute without a
name, however they are come by: each way gives exactly what its data say, and where these have a
defect anywhere it gives nothing. So no reading is ever refused for its values when it is sent. -/
theorem models_guarded :
    (∀ r : Reading, ¬ r.raw.Defective) ∧ (∀ f : Feed, ¬ f.raw.Defective) ∧
    (∀ a : Attribute, ¬ a.raw.Defective) ∧
    (∀ reference value timestamp,
      (Reading.single reference value timestamp).raw = ⟨reference, [value], timestamp⟩) ∧
    (∀ x : Reading.Raw, Guards (· = x)
      (fun r => Reading.ofValues? x.reference x.values x.timestamp = .ok r)
      (fun x r => x = r.raw) Reading.Raw.Defective) ∧
    (∀ x : Feed.Raw, Guards (· = x)
      (fun f => Feed.make? x.name x.reference x.type x.unit = .ok f)
      (fun x f => x = f.raw) Feed.Raw.Defective) ∧
    (∀ x : FeedRecord, Guards (· = x)
      (fun f => Feed.ofTokens? x.name x.reference x.type x.unit = .ok f)
      (fun x f => x = .ofFeed f) FeedRecord.Defective) ∧
    (∀ x : Attribute.Raw, Guards (· = x)
      (fun a => Attribute.make? x.name x.type x.value = .ok a)
      (fun x a => x = a.raw) Attribute.Raw.Defective) ∧
    (∀ x : AttributeRecord, Guards (· = x)
      (fun a => Attribute.ofTokens? x.name x.type x.value = .ok a)
      (fun x a => x = .ofAttribute a) AttributeRecord.Defective) ∧
    (∀ s, Guards (fun x => Reading.fields.parse s = .ok x) (fun r => Reading.stored.parse s = .ok r)
      (fun x r => x = r.raw) Reading.Raw.Defective) ∧
    (∀ s, Guards (fun x => Feed.fields.parse s = .ok x) (fun f => Feed.stored.parse s = .ok f)
      (fun x f => x = f.raw) Feed.Raw.Defective) ∧
    (∀ s, Guards (fun x => Attribute.fields.parse s = .ok x)
      (fun a => Attribute.stored.parse s = .ok a)
      (fun x a => x = a.raw) Attribute.Raw.Defective) ∧
    (∀ s, Guards (fun x => Device.fields.parse s = .ok x) (fun d => Device.stored.parse s = .ok d)
      Device.Raw.Makes Device.Raw.Defective) ∧
    (∀ e, Guards
      (fun v => Area.data.messageType e.channel = .feedValues ∧ Payload.validated e = .ok v)
      (fun m => (Area.data.parseAs .feedValues e).value = some m)
      Data.FeedValuesMakes Data.FeedValuesDefective) ∧
    (∀ e, Guards
      (fun l => Area.data.messageType e.channel = .feedRegistration ∧
        Payload.typed (.list FeedRecord.shape) e = .ok l)
      (fun m => (Area.data.parseAs .feedRegistration e).value = some m)
      (ListMakes (fun x f => x = .ofFeed f) .feedRegistration) fun l => ∃ x ∈ l, x.Defective) ∧
    (∀ e, Guards
      (fun l => Area.data.messageType e.channel = .attributeRegistration ∧
        Payload.typed (.list AttributeRecord.shape) e = .ok l)
      (fun m => (Area.data.parseAs .attributeRegistration e).value = some m)
      (ListMakes (fun x a => x = .ofAttribute a) .attributeRegistration)
      fun l => ∃ x ∈ l, x.Defective) ∧
    (∀ e, Guards
      (fun l => Area.gatewayRegistration.messageType e.channel = .deviceRegistration ∧
        Payload.typed DeviceRecord.list e = .ok l)
      (fun m => (Area.gatewayRegistration.parseAs .deviceRegistration e).value = some m)
      GatewayRegistration.DevicesMake fun l => ∃ x ∈ l, x.Defective) ∧
    ∀ key readings,
      Area.data.write key (.feedValues readings) ≠ .error (.missingField "reading values") := by
  refine ⟨Reading.not_defective_raw, Feed.not_defective_raw, Attribute.not_defective_raw,
    fun _ _ _ => rfl, ?_, ?_, ?_, ?_, ?_, ?_, ?_, ?_, ?_, Data.guards_feedValues,
    Data.guards_feedRegistration, Data.guards_attributeRegistration,
    GatewayRegistration.guards_deviceRegistration, Data.write_feedValues_ne_error⟩
  · exact fun x => guards_of_make (fun _ => Reading.ofValues?_eq_ok) Reading.not_defective_raw
  · exact fun x => guards_of_make (fun _ => Feed.make?_eq_ok) Feed.not_defective_raw
  · exact fun x => guards_of_make (fun _ => FeedRecord.ofTokens?_eq_ok)
      FeedRecord.not_defective_ofFeed
  · exact fun x => guards_of_make (fun _ => Attribute.make?_eq_ok) Attribute.not_defective_raw
  · exact fun x => guards_of_make (fun _ => AttributeRecord.ofTokens?_eq_ok)
      AttributeRecord.not_defective_ofAttribute
  · apply guards_of_narrows Reading.narrows_fields
    rintro _ r rfl
    exact r.not_defective_raw
  · apply guards_of_narrows Feed.narrows_fields
    rintro _ f rfl
    exact f.not_defective_raw
  · apply guards_of_narrows Attribute.narrows_fields
    rintro _ a rfl
    exact a.not_defective_raw
  · exact guards_of_narrows Device.narrows_fields Device.not_defective_of_makes

def Device.unnamedFeed : Octets :=
  Text.encode ("[\"d\",\"k\",\"g\",\x7b\x7d," ++
    "[[\"Temp\",\"T\",\"IN\",\"\"],[\"\",\"S\",\"IN_OUT\",\"\"]],[]]")

theorem models_guarded_unnamedFeed :
    Device.fields.parse Device.unnamedFeed =
        .ok ⟨"d", "k", "g", [], [⟨"Temp", "T", .input, ""⟩, ⟨"", "S", .inputOutput, ""⟩], []⟩ ∧
      ∀ d, Device.stored.parse Device.unnamedFeed ≠ .ok d := by
  have hraw : Device.fields.parse Device.unnamedFeed =
      .ok ⟨"d", "k", "g", [], [⟨"Temp", "T", .input, ""⟩, ⟨"", "S", .inputOutput, ""⟩], []⟩ := by
    decide +kernel
  obtain ⟨-, -, -, -, -, -, -, -, -, -, -, -, hdevice, -⟩ := models_guarded
  refine ⟨hraw, (hdevice _).refused _ hraw (.inl ⟨⟨"", "S", .inputOutput, ""⟩, ?_, .inl rfl⟩)⟩
  exact List.mem_cons_of_mem _ (List.mem_singleton_self _)

end DeviceLink
