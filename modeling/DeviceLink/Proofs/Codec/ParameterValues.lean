import DeviceLink.Proofs.Codec.Conformance
import DeviceLink.Proofs.Codec.ParameterFormat
import DeviceLink.Proofs.Spelling

/-! Parameters that are sent: which of their values the payload has, and which texts come back. -/
namespace DeviceLink.Data

section Texts

variable {v : Json} {text text' : String}

theorem ParameterText.unique (h : ParameterText v text) (h' : ParameterText v text') :
    text = text' := by
  cases h <;> cases h' <;> rfl

theorem parameterText_returned (v : String) :
    ParameterText (Value.toJson v).reread (Value.returned v) := by
  rcases Value.toJson_scalar v with ⟨b, hjson, hb⟩ | ⟨x, hjson⟩ | hjson
  · have hreturned : Value.returned v = if b then "true" else "false" := by
      rw [Value.returned, hjson, hb]
      rfl
    rw [hreturned, hjson]
    exact .bool b
  · cases x with
    | integer n =>
      rw [Value.returned_of_integer hjson, hjson]
      exact .number _
    | double x =>
      rw [Value.returned_of_double hjson, hjson]
      exact .number _
  · have hreturned : Value.returned v = v := by
      rw [Value.returned, hjson]
      rfl
    rw [hreturned, hjson]
    exact .string v

theorem eq_map_returned {slot read : Option String}
    (h : Option.Rel ParameterText ((slot.map Value.toJson).map Json.reread) read) :
    read = slot.map Value.returned := by
  cases slot with
  | none =>
    cases h
    rfl
  | some v =>
    cases h with
    | some htext => exact congrArg some (htext.unique (parameterText_returned v))

end Texts

def sentMembers (parameters : List (ParameterName × String)) : List (String × Json) :=
  Ascending.ofList (parameters.map fun p => (p.1.token, Value.toJson p.2))

section Members

variable (parameters : List (ParameterName × String))

theorem sorted_sentMembers : Ascending.Sorted (sentMembers parameters) :=
  Ascending.sorted_ofList _

private theorem parametersJson_eq :
    parametersJson parameters = .object (sentMembers parameters) := rfl

theorem reread_parametersJson : (parametersJson parameters).reread =
    .object ((sentMembers parameters).map fun m => (m.1, m.2.reread)) := by
  have hsorted : Ascending.Sorted ((sentMembers parameters).map fun m => (m.1, m.2.reread)) :=
    List.pairwise_map.mpr (sorted_sentMembers parameters)
  rw [parametersJson_eq, Json.reread_object, hsorted.ofList_eq]

theorem find?_sentMembers (n : ParameterName) : Ascending.find? n.token (sentMembers parameters) =
    (parameterValue? parameters.reverse n).map Value.toJson := by
  rw [sentMembers, Ascending.find?_ofList, ← List.map_reverse,
    Ascending.find?_map_of_injective ParameterName.token_injective, parameterValue?_eq_find?]

theorem isParameters_reread : IsParameters (parametersJson parameters).reread := by
  rw [reread_parametersJson]
  refine ⟨_, rfl, List.forall_mem_map.mpr fun m hm => ?_⟩
  obtain ⟨p, -, rfl⟩ := List.mem_map.mp (Ascending.mem_ofList hm)
  exact ⟨⟨p.1, rfl⟩, exists_parameterText_iff.mp ⟨_, parameterText_returned p.2⟩⟩

end Members

section Messages

variable {key : String} {parameters : List (ParameterName × String)} {e : Envelope}

theorem make_parameters (h : (Area.data.make key (.parametersUpdate parameters)).value = some e) :
    e = ⟨Topic.channel .deviceToPlatform key .parameterSync,
      (parametersJson parameters).encode⟩ := by
  obtain ⟨-, text, htext, rfl⟩ := Area.of_make (by decide) h
  dsimp only [Area.payload, payload] at htext
  split_ifs at htext
  cases htext
  rfl

/-- Parameters that are sent are read, each with the text that its last value comes back with. -/
theorem parse_sent_parameters
    (h : (Area.data.make key (.parametersUpdate parameters)).value = some e) :
    ∃ l, (Area.data.parseAs .parameterSync e).value = some (.parametersUpdate l) ∧
      ∀ n, parameterValue? l n = (parameterValue? parameters.reverse n).map Value.returned := by
  have he := make_parameters h
  have htype : Topic.messageType e.channel = .parameterSync := by
    rw [he]
    exact Area.messageType_of_schema (t := .parameterSync) (by decide) _ _
  have hjson : Payload.json e = .ok (parametersJson parameters).reread := by
    rw [he]
    exact json_parametersJson _ parameters
  have hformat := isParameters_reread parameters
  rw [reread_parametersJson] at hjson hformat
  obtain ⟨l, hl⟩ := exists_sets_iff.mpr hformat
  refine ⟨l, (parse_parameters_eq_some htype).mpr ⟨_, l, hjson, hl, rfl⟩, fun n => ?_⟩
  have hfind := find?_of_sets hl n
  rw [Ascending.find?_map, find?_sentMembers] at hfind
  exact eq_map_returned hfind

/-- The payload of parameters has a member for exactly the parameters that a look-up finds, but with
the last value of each where the look-up finds the first: the one that is read is sent exactly if
both are written as one scalar. -/
theorem sent_parameter_iff
    (h : (Area.data.make key (.parametersUpdate parameters)).value = some e) :
    ∃ members, e.content = (Json.object members).encode ∧
      Payload.json e = .ok (Json.object members).reread ∧ (members.map Prod.fst).Nodup ∧
      ∀ n : ParameterName,
        ((Ascending.find? n.token members).isSome ↔ (parameterValue? parameters n).isSome) ∧
        Ascending.find? n.token members =
          (parameterValue? parameters.reverse n).map Value.toJson ∧
        ∀ v ∈ parameterValue? parameters n,
          (Ascending.find? n.token members = some (Value.toJson v) ↔
            ∀ w ∈ parameterValue? parameters.reverse n, Value.toJson w = Value.toJson v) := by
  rw [make_parameters h]
  refine ⟨sentMembers parameters, rfl, json_parametersJson _ parameters, ?_,
    fun n => ⟨?_, find?_sentMembers parameters n, ?_⟩⟩
  · exact Ascending.Sorted.nodup (sorted_sentMembers parameters)
  · rw [find?_sentMembers, Option.isSome_map, isSome_parameterValue?_reverse]
  · intro v hv
    have hsome : (parameterValue? parameters.reverse n).isSome :=
      (isSome_parameterValue?_reverse parameters n).mpr (Option.isSome_of_mem hv)
    obtain ⟨w, hw⟩ := Option.isSome_iff_exists.mp hsome
    rw [find?_sentMembers, hw]
    simp

def repeatedParameters : List (ParameterName × String) :=
  [(.firmwareVersion, "a"), (.gateway, "true"), (.firmwareVersion, "b")]

theorem sent_parameter_iff_repeated :
    ∃ e members, (Area.data.make "K" (.parametersUpdate repeatedParameters)).value = some e ∧
      e.content = (Json.object members).encode ∧
      Payload.json e = .ok (Json.object members).reread ∧
      Ascending.find? "GATEWAY" members = some (.bool true) ∧
      Ascending.find? "FIRMWARE_VERSION" members = some (.string "b") := by
  have hmake : (Area.data.make "K" (.parametersUpdate repeatedParameters)).value.isSome = true :=
    rfl
  obtain ⟨e, he⟩ := Option.isSome_iff_exists.mp hmake
  obtain ⟨members, hcontent, hjson, -, hmembers⟩ := sent_parameter_iff he
  obtain ⟨-, -, hgateway⟩ := hmembers .gateway
  obtain ⟨-, hversion, -⟩ := hmembers .firmwareVersion
  refine ⟨e, members, he, hcontent, hjson, (hgateway "true" rfl).mpr fun w hw => ?_, hversion⟩
  cases hw
  rfl

/-- The value that a look-up finds is not the one that is sent. -/
theorem first_value_not_sent :
    ∃ e, (Area.data.make "D" (.parametersUpdate
        [(.firmwareVersion, "a"), (.firmwareVersion, "b")])).value = some e ∧
      parameterValue? [(.firmwareVersion, "a"), (.firmwareVersion, "b")] .firmwareVersion =
        some "a" ∧
      e.content = (Json.object [("FIRMWARE_VERSION", .string "b")]).encode ∧
      Payload.json e = .ok (.object [("FIRMWARE_VERSION", .string "b")]) ∧
      Value.toJson "a" ≠ .string "b" := by
  have hvalue : Value.toJson "a" = .string "a" := rfl
  refine ⟨_, rfl, rfl, rfl, json_parametersJson _ [(.firmwareVersion, "b")], ?_⟩
  rw [hvalue]
  exact fun h => absurd (Json.string.inj h) (by decide)

/-- Parameters of different names that are sent come back, each with its value as it is returned;
exactly the steady spellings are still the same. -/
theorem parameters_return (hnames : (parameters.map Prod.fst).Nodup)
    (h : (Area.data.make key (.parametersUpdate parameters)).value = some e) :
    ∃ l, (Area.data.parseAs .parameterSync e).value = some (.parametersUpdate l) ∧
      ∀ n, parameterValue? l n = (parameterValue? parameters n).map Value.returned ∧
        (parameterValue? l n = parameterValue? parameters n ↔
          ∀ v ∈ parameterValue? parameters n, Value.Steady v) := by
  obtain ⟨l, hparse, hl⟩ := parse_sent_parameters h
  refine ⟨l, hparse, fun n => ?_⟩
  have hvalue : parameterValue? l n = (parameterValue? parameters n).map Value.returned := by
    rw [hl, parameterValue?_eq_find?, parameterValue?_eq_find?, Ascending.find?_reverse hnames]
  refine ⟨hvalue, ?_⟩
  rw [hvalue]
  cases parameterValue? parameters n with
  | none => simp
  | some v => simp [Value.returned_eq_iff]

theorem parameters_return_numerals :
    ∃ e l, (Area.data.make "a/b" (.parametersUpdate
        [(.maximumMessageSize, "007"), (.externalId, "-7"), (.gateway, "true")])).value = some e ∧
      (Area.data.parseAs .parameterSync e).value = some (.parametersUpdate l) ∧
      parameterValue? l .maximumMessageSize = some "7" ∧
      parameterValue? l .externalId = some "-7" ∧ parameterValue? l .gateway = some "true" ∧
      parameterValue? l .firmwareVersion = none := by
  have hmake : (Area.data.make "a/b" (.parametersUpdate
      [(.maximumMessageSize, "007"), (.externalId, "-7"), (.gateway, "true")])).value.isSome =
        true := rfl
  have hnames : ([(ParameterName.maximumMessageSize, "007"), (.externalId, "-7"),
      (.gateway, "true")].map Prod.fst).Nodup := by decide
  obtain ⟨e, he⟩ := Option.isSome_iff_exists.mp hmake
  obtain ⟨l, hparse, hl⟩ := parameters_return hnames he
  have hid : parameterValue? l .externalId = some "-7" :=
    (hl .externalId).2.mpr fun v hv => by
      cases hv
      exact Value.Steady.whole (n := -7) (by decide) (by decide)
  have htext : ¬ Value.IsNumeric "true" := by
    unfold Value.IsNumeric
    decide
  have hgateway : parameterValue? l .gateway = some "true" :=
    (hl .gateway).2.mpr fun v hv => by
      cases hv
      exact .text htext
  exact ⟨e, l, he, hparse, (hl .maximumMessageSize).1, hid, hgateway, (hl .firmwareVersion).1⟩

/-- A version whose last digit is a zero comes back as another one. -/
theorem version_changed :
    ∃ e l, (Area.data.make "D" (.parametersUpdate [(.firmwareVersion, "1.10")])).value = some e ∧
      (Area.data.parseAs .parameterSync e).value = some (.parametersUpdate l) ∧
      parameterValue? [(.firmwareVersion, "1.10")] .firmwareVersion = some "1.10" ∧
      parameterValue? l .firmwareVersion = some "1.1" := by
  have hmake : (Area.data.make "D"
      (.parametersUpdate [(.firmwareVersion, "1.10")])).value.isSome = true := rfl
  have hkind : Value.kind "1.10" = .double := by decide
  have hdouble : Value.double? "1.10" = some ⟨0x3FF199999999999A⟩ := by decide +kernel
  have htext : (Json.number (.double ⟨0x3FF199999999999A⟩)).reread.text = "1.1" := by
    decide +kernel
  have hreturned : Value.returned "1.10" = "1.1" := by
    rw [Value.returned_of_double (Value.toJson_of_double hkind hdouble (by decide)), htext]
  obtain ⟨e, he⟩ := Option.isSome_iff_exists.mp hmake
  obtain ⟨l, hparse, hl⟩ := parse_sent_parameters he
  refine ⟨e, l, he, hparse, rfl, ?_⟩
  rw [hl, ← hreturned]
  rfl

end Messages

end DeviceLink.Data
