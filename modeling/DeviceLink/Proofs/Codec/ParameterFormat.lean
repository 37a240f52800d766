import DeviceLink.Proofs.Codec.Area
import DeviceLink.Proofs.Json.Members
import DeviceLink.Proofs.Schema

/-! The format of parameters: which JSON is read as parameters, which texts they have then, and what
a look-up finds among them. -/
namespace DeviceLink.Data

/-- The values of a parameter: all but arrays and objects. -/
inductive IsParameterValue : Json → Prop
  | null : IsParameterValue .null
  | bool (b : Bool) : IsParameterValue (.bool b)
  | number (x : Json.Number) : IsParameterValue (.number x)
  | string (s : String) : IsParameterValue (.string s)

/-- Parameters: an object that names each of them by its token. -/
def IsParameters (v : Json) : Prop :=
  ∃ members, v = .object members ∧
    ∀ m ∈ members, (∃ n : ParameterName, m.1 = n.token) ∧ IsParameterValue m.2

/-- The text of a value of a parameter; null has the empty one. -/
inductive ParameterText : Json → String → Prop
  | null : ParameterText .null ""
  | bool (b : Bool) : ParameterText (.bool b) (if b then "true" else "false")
  | number (x : Json.Number) : ParameterText (.number x) (Json.number x).text
  | string (s : String) : ParameterText (.string s) s

def Sets (m : String × Json) (p : ParameterName × String) : Prop :=
  m.1 = p.1.token ∧ ParameterText m.2 p.2

section Entries

variable {m : String × Json} {p : ParameterName × String} {members : List (String × Json)}
  {l : List (ParameterName × String)}

theorem exists_parameterText_iff {v : Json} : (∃ text, ParameterText v text) ↔
    IsParameterValue v := by
  constructor
  · intro h
    obtain ⟨text, h⟩ := h
    cases h with
    | null => exact .null
    | bool b => exact .bool b
    | number x => exact .number x
    | string => exact .string text
  · intro h
    cases h with
    | null => exact ⟨_, .null⟩
    | bool b => exact ⟨_, .bool b⟩
    | number x => exact ⟨_, .number x⟩
    | string s => exact ⟨_, .string s⟩

theorem parameterOf_eq_ok : parameterOf m = .ok p ↔ Sets m p := by
  obtain ⟨token, v⟩ := m
  obtain ⟨n, text⟩ := p
  constructor
  · intro h
    obtain ⟨name, hname, h⟩ := bind_eq_ok.mp h
    have htoken := Payload.parameter_eq_ok.mp hname
    cases v with
    | array items => cases h
    | object members => cases h
    | null =>
      cases h
      exact ⟨htoken, .null⟩
    | bool b =>
      cases h
      exact ⟨htoken, .bool b⟩
    | number x =>
      cases h
      exact ⟨htoken, .number x⟩
    | string =>
      cases h
      exact ⟨htoken, .string text⟩
  · intro h
    obtain ⟨htoken, htext⟩ := h
    refine bind_eq_ok.mpr ⟨n, Payload.parameter_eq_ok.mpr htoken, ?_⟩
    cases htext <;> rfl

theorem exists_sets_iff : (∃ l, List.Forall₂ Sets members l) ↔ IsParameters (.object members) := by
  constructor
  · intro h
    obtain ⟨l, hl⟩ := h
    refine ⟨members, rfl, forall_of_forall₂ hl fun m p hset => ?_⟩
    exact ⟨⟨p.1, hset.1⟩, exists_parameterText_iff.mp ⟨p.2, hset.2⟩⟩
  · intro h
    obtain ⟨_, ⟨⟩, hmembers⟩ := h
    apply exists_forall₂
    intro m hm
    obtain ⟨⟨n, hn⟩, hvalue⟩ := hmembers m hm
    obtain ⟨text, htext⟩ := exists_parameterText_iff.mpr hvalue
    exact ⟨(n, text), hn, htext⟩

theorem map_token_of_sets (h : List.Forall₂ Sets members l) :
    l.map (fun p => p.1.token) = members.map Prod.fst := by
  induction h with
  | nil => rfl
  | cons hset _ ih => rw [List.map_cons, List.map_cons, hset.1, ih]

theorem find?_of_sets (h : List.Forall₂ Sets members l) (n : ParameterName) :
    Option.Rel ParameterText (Ascending.find? n.token members) (parameterValue? l n) := by
  rw [parameterValue?_eq_find?]
  induction h with
  | nil => exact .none
  | @cons m p _ _ hset _ ih =>
    by_cases hn : n = p.1
    · have htoken : n.token = m.1 := by rw [hset.1, hn]
      simpa [Ascending.find?, hn, htoken.symm] using hset.2
    · have htoken : n.token ≠ m.1 := by
        rw [hset.1]
        exact fun heq => hn (ParameterName.token_injective heq)
      simpa [Ascending.find?, hn, htoken] using ih

theorem ascending_of_sets (h : List.Forall₂ Sets members l)
    (hordered : Json.Ordered (.object members)) :
    l.Pairwise fun p q => Text.encode p.1.token < Text.encode q.1.token := by
  have hnames : (members.map Prod.fst).Pairwise fun a b => Text.encode a < Text.encode b := by
    rw [List.pairwise_map]
    exact hordered.ascending
  rwa [← map_token_of_sets h, List.pairwise_map] at hnames

theorem parameterValue?_eq_some
    (h : l.Pairwise fun p q => Text.encode p.1.token < Text.encode q.1.token)
    (n : ParameterName) (text : String) : parameterValue? l n = some text ↔ (n, text) ∈ l := by
  rw [parameterValue?_eq_find?]
  apply Ascending.find?_eq_some_iff
  refine List.pairwise_map.mpr (h.imp fun hlt heq => ?_)
  rw [heq] at hlt
  exact List.lt_irrefl _ hlt

end Entries

section Messages

variable {e : Envelope} {m : Message}

private theorem readParameters_eq_ok (htype : Topic.messageType e.channel = .parameterSync) :
    readParameters e = .ok m ↔ ∃ members l, Payload.json e = .ok (.object members) ∧
      List.Forall₂ Sets members l ∧ m = .parametersUpdate l := by
  constructor
  · intro h
    obtain ⟨v, hv, h⟩ := bind_eq_ok.mp h
    obtain ⟨-, -, hjson, -⟩ := Payload.validated_eq_ok.mp hv
    cases v with
    | object members =>
      obtain ⟨l, hl, h⟩ := bind_eq_ok.mp h
      cases h
      exact ⟨members, l, hjson, (mapM_eq_ok.mp hl).imp fun _ _ => parameterOf_eq_ok.mp, rfl⟩
    | _ => cases h
  · intro h
    obtain ⟨members, l, hjson, hl, rfl⟩ := h
    have hfault : (Schema.dictionary Schema.parameterTokens).fault? (.object members) = none := by
      refine Schema.fault?_dictionary_eq_none.mpr ⟨members, rfl, forall_of_forall₂ hl ?_⟩
      intro m p hset
      rw [hset.1]
      exact Schema.token_mem_parameterTokens p.1
    have hschema := congrArg Schema.ofType? htype
    have hvalid := Payload.validated_eq_ok.mpr ⟨_, hschema, hjson, hfault⟩
    have hread := mapM_eq_ok.mpr (hl.imp fun _ _ => parameterOf_eq_ok.mpr)
    exact bind_eq_ok.mpr ⟨_, hvalid, bind_eq_ok.mpr ⟨l, hread, rfl⟩⟩

theorem parse_parameters_eq_some (htype : Topic.messageType e.channel = .parameterSync) :
    (Area.data.parseAs .parameterSync e).value = some m ↔
      ∃ members l, Payload.json e = .ok (.object members) ∧ List.Forall₂ Sets members l ∧
        m = .parametersUpdate l := by
  have hreader : Area.data.reader? .parameterSync = some readParameters := rfl
  rw [Area.parseAs_eq_some hreader, readParameters_eq_ok htype]
  exact and_iff_right htype

private theorem isSome_parse_parameters (htype : Topic.messageType e.channel = .parameterSync) :
    (Area.data.parseAs .parameterSync e).value.isSome ↔
      ∃ v, Payload.json e = .ok v ∧ IsParameters v := by
  rw [Option.isSome_iff_exists]
  simp only [parse_parameters_eq_some htype]
  constructor
  · intro h
    obtain ⟨-, members, l, hjson, hl, -⟩ := h
    exact ⟨_, hjson, exists_sets_iff.mp ⟨l, hl⟩⟩
  · intro h
    obtain ⟨_, hjson, members, rfl, hmembers⟩ := h
    obtain ⟨l, hl⟩ := exists_sets_iff.mpr ⟨members, rfl, hmembers⟩
    exact ⟨_, members, l, hjson, hl, rfl⟩

/-- Content is read as parameters exactly if it is JSON in their format. There is then one entry for
every name among the members that are written, in the order of the octets of the tokens; it has the
text of the last member of its name, and a look-up finds it. -/
theorem parameters_format (htype : Topic.messageType e.channel = .parameterSync) :
    ((Area.data.parseAs .parameterSync e).value.isSome ↔
      ∃ v, Payload.json e = .ok v ∧ IsParameters v) ∧
    ∀ m, (Area.data.parseAs .parameterSync e).value = some m → ∃ l written,
      m = .parametersUpdate l ∧ Json.writtenMembers.parse e.content = .ok written ∧
      (l.Pairwise fun p q => Text.encode p.1.token < Text.encode q.1.token) ∧
      (∀ name, name ∈ l.map (fun p => p.1.token) ↔ name ∈ written.map Prod.fst) ∧
      ∀ n, Option.Rel ParameterText (Ascending.find? n.token written.reverse)
          (parameterValue? l n) ∧
        ∀ text, parameterValue? l n = some text ↔ (n, text) ∈ l := by
  refine ⟨isSome_parse_parameters htype, fun m h => ?_⟩
  obtain ⟨members, l, hjson, hl, rfl⟩ := (parse_parameters_eq_some htype).mp h
  have hascending := ascending_of_sets hl (Payload.ordered_of_json hjson)
  obtain ⟨written, hwritten, rfl⟩ := Json.parse_eq_object.mp (Payload.json_eq_ok.mp hjson)
  refine ⟨l, written, rfl, hwritten, hascending, fun name => ?_, fun n => ⟨?_, ?_⟩⟩
  · rw [map_token_of_sets hl]
    exact Ascending.mem_keys_ofList
  · rw [← Ascending.find?_ofList]
    exact find?_of_sets hl n
  · exact parameterValue?_eq_some hascending n

end Messages

def repeatedMembers : Json :=
  .object [("GATEWAY", .array []), ("EXTERNAL_ID", .null), ("MAXIMUM_MESSAGE_SIZE", .ofNat 7),
    ("GATEWAY", .bool true)]

private theorem whole_repeatedMembers : Json.Whole Json.maxDepth repeatedMembers := by
  apply Json.Whole.object
  have hseven : Json.Whole 126 (.ofNat 7) := by
    apply Json.Whole.integer
    · unfold limit63
      omega
    · unfold limit64
      omega
  have hempty : Json.Whole 126 (.array []) := .array fun _ h => nomatch h
  exact List.forall_mem_cons.mpr ⟨hempty, List.forall_mem_cons.mpr ⟨.null,
    List.forall_mem_cons.mpr ⟨hseven, List.forall_mem_singleton.mpr (.bool true)⟩⟩⟩

theorem parameters_format_repeated :
    let e : Envelope := ⟨"d2p/D/parameters", repeatedMembers.encode⟩
    Topic.messageType e.channel = .parameterSync ∧
      (Area.data.parseAs .parameterSync e).value = some (.parametersUpdate
        [(.externalId, ""), (.gateway, "true"), (.maximumMessageSize, "7")]) ∧
      (Area.data.parseAs .parameterSync e).value.isSome ∧
      ∃ written, Json.writtenMembers.parse e.content = .ok written ∧ ∀ name,
        name ∈ ["EXTERNAL_ID", "GATEWAY", "MAXIMUM_MESSAGE_SIZE"] ↔
          name ∈ written.map Prod.fst := by
  intro e
  have htype : Topic.messageType e.channel = .parameterSync := by decide
  have hjson : Payload.json e = .ok repeatedMembers.arranged :=
    Payload.json_encode_arranged whole_repeatedMembers
  have hsets : List.Forall₂ Sets [("EXTERNAL_ID", .null), ("GATEWAY", .bool true),
        ("MAXIMUM_MESSAGE_SIZE", .ofNat 7)]
      [(.externalId, ""), (.gateway, "true"), (.maximumMessageSize, "7")] :=
    .cons ⟨rfl, .null⟩ (.cons ⟨rfl, .bool true⟩ (.cons ⟨rfl, .number (.integer 7)⟩ .nil))
  have hparse := (parse_parameters_eq_some htype).mpr ⟨_, _, hjson, hsets, rfl⟩
  obtain ⟨hformat, hentries⟩ := parameters_format htype
  obtain ⟨_, written, ⟨⟩, hwritten, -, hnames, -⟩ := hentries _ hparse
  exact ⟨htype, hparse, hformat.mpr ⟨_, hjson, exists_sets_iff.mp ⟨_, hsets⟩⟩, written, hwritten,
    hnames⟩

end DeviceLink.Data
