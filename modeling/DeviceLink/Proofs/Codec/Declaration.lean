import DeviceLink.Proofs.Codec.Conformance

/-! Declarations: feeds, attributes, removals of feeds and requests for parameters are read as they
were sent, entry by entry. -/
namespace DeviceLink

open Json (Shape)

/-- The messages by which a device says what it has, and of which parameters it wants the values. -/
def Message.Declares : Message → Prop
  | .feedRegistration _ | .feedRemoval _ | .attributeRegistration _ | .synchronizeParameters _ =>
    True
  | _ => False

namespace Data

variable {channel : String}

theorem typed_list {α : Type} {shape : Shape α} (hshape : ∀ a, shape.Robust 126 a) (l : List α)
    (channel : String) :
    Payload.typed (.list shape) ⟨channel, Text.encode ((Shape.list shape).render l)⟩ = .ok l := by
  have hlist : (Shape.list shape).Robust Json.maxDepth l := Shape.robust_list fun a _ => hshape a
  exact Payload.typed_render hlist.readsBack

theorem readFeedRegistration_render (feeds : List Feed) :
    readFeedRegistration ⟨channel, Text.encode
      ((Shape.list FeedRecord.shape).render (feeds.map .ofFeed))⟩ =
        .ok (.feedRegistration feeds) := by
  have hrecords := typed_list FeedRecord.robust (feeds.map .ofFeed) channel
  have hfeeds : (feeds.map FeedRecord.ofFeed).mapM FeedRecord.toFeed = .ok feeds :=
    mapM_map_of_inverse FeedRecord.toFeed_ofFeed feeds
  unfold readFeedRegistration
  simp only [hrecords, hfeeds, bind, Except.bind]

theorem readAttributeRegistration_render (attributes : List Attribute) :
    readAttributeRegistration ⟨channel, Text.encode
      ((Shape.list AttributeRecord.shape).render (attributes.map .ofAttribute))⟩ =
        .ok (.attributeRegistration attributes) := by
  have hrecords := typed_list AttributeRecord.robust (attributes.map .ofAttribute) channel
  have hattributes : (attributes.map AttributeRecord.ofAttribute).mapM
      AttributeRecord.toAttribute = .ok attributes :=
    mapM_map_of_inverse AttributeRecord.toAttribute_ofAttribute attributes
  unfold readAttributeRegistration
  simp only [hrecords, hattributes, bind, Except.bind]

theorem readFeedRemoval_strings (references : List String) :
    readFeedRemoval ⟨channel, (Json.strings references).encode⟩ =
      .ok (.feedRemoval references) := by
  unfold readFeedRemoval
  simp only [Payload.json_strings, Payload.strings_strings, bind, Except.bind]

/-- Tokens of parameters pass the schema, and stand for the names that they were written for. -/
theorem readSynchronizeParameters_strings (names : List ParameterName)
    (hchannel : Topic.messageType channel = .synchronizeParameters) :
    readSynchronizeParameters
      ⟨channel, (Json.strings (names.map ParameterName.token)).encode⟩ =
        .ok (.synchronizeParameters names) := by
  have hschema : Schema.ofType? (Topic.messageType channel) =
      some (.list (.oneOf Schema.parameterTokens)) :=
    congrArg Schema.ofType? hchannel
  have harranged := (Payload.ordered_strings (names.map ParameterName.token)).arranged_eq
  have hfault : (Schema.list (.oneOf Schema.parameterTokens)).fault?
      (Json.strings (names.map ParameterName.token)).arranged = none := by
    rw [harranged]
    exact Schema.fault?_parameters_eq_none.mpr ⟨names, rfl⟩
  have hvalid := Payload.validated_encode hschema (Payload.whole_strings _ 126) hfault
  rw [harranged] at hvalid
  have hnames : (names.map ParameterName.token).mapM Payload.parameter = .ok names :=
    mapM_map_of_inverse (fun _ => Payload.parameter_eq_ok.mpr rfl) names
  unfold readSynchronizeParameters
  simp only [hvalid, Payload.strings_strings, hnames, bind, Except.bind]

theorem exists_reader {m : Message} {text : String} (h : payload m = .ok text)
    (hm : m.Declares) : ∃ read, reader? m.type = some read ∧
      ∀ channel, Topic.messageType channel = m.type →
        read ⟨channel, Text.encode text⟩ = .ok m := by
  cases m with
  | feedRegistration feeds =>
    dsimp only [payload, listText] at h
    split_ifs at h
    cases h
    exact ⟨readFeedRegistration, rfl, fun _ _ => readFeedRegistration_render feeds⟩
  | feedRemoval references =>
    dsimp only [payload] at h
    split_ifs at h
    obtain ⟨-, -, h⟩ := bind_eq_ok.mp h
    cases h
    exact ⟨readFeedRemoval, rfl, fun _ _ => readFeedRemoval_strings references⟩
  | attributeRegistration attributes =>
    dsimp only [payload, listText] at h
    split_ifs at h
    cases h
    exact ⟨readAttributeRegistration, rfl,
      fun _ _ => readAttributeRegistration_render attributes⟩
  | synchronizeParameters names =>
    dsimp only [payload] at h
    split_ifs at h
    cases h
    exact ⟨readSynchronizeParameters, rfl,
      fun _ hchannel => readSynchronizeParameters_strings names hchannel⟩
  | _ => cases hm

private theorem messageType_of_declares {m : Message} (hm : m.Declares) (d : Direction)
    (key : String) : Topic.messageType (Topic.channel d key m.type) = m.type := by
  rw [Topic.messageType_channel]
  cases m with
  | feedRegistration | feedRemoval | attributeRegistration | synchronizeParameters =>
    rw [Message.type]
    decide
  | _ => cases hm

/-- A declaration that is sent is read as the message that it is, element for element and in
order. -/
theorem declared_as_sent {key : String} {m : Message} {e : Envelope} (hm : m.Declares)
    (h : (Area.data.make key m).value = some e) : (Area.data.parse e).value = some m := by
  obtain ⟨-, text, htext, rfl⟩ := Area.of_make (by decide) h
  obtain ⟨read, hreader, hread⟩ := exists_reader htext hm
  have htype := messageType_of_declares hm Area.data.outgoing key
  exact Area.parse_value htype hreader (hread _ htype)

def twinFeeds : List Feed :=
  [⟨"a \"b\"", "T", .input, "°C", by decide, by decide⟩,
    ⟨"\n\\", "T", .inputOutput, "", by decide, by decide⟩]

theorem declared_as_sent_twins :
    (Message.feedRegistration twinFeeds).Declares ∧
      ∃ e, (Area.data.make "a/b" (.feedRegistration twinFeeds)).value = some e ∧
        (Area.data.parse e).value = some (.feedRegistration twinFeeds) := by
  have hdeclares : (Message.feedRegistration twinFeeds).Declares := trivial
  have hmake : (Area.data.make "a/b" (.feedRegistration twinFeeds)).value.isSome = true := rfl
  obtain ⟨e, he⟩ := Option.isSome_iff_exists.mp hmake
  exact ⟨hdeclares, e, he, declared_as_sent hdeclares he⟩

end Data

end DeviceLink
