import DeviceLink.Codec.Payload
import DeviceLink.Proofs.Json.Ordered
import DeviceLink.Proofs.Parameter

/-! Payloads: what is demanded of texts, and content that is read as what it was made from. -/
namespace DeviceLink.Payload

theorem require_eq_ok {field value : String} : require field value = .ok () ↔ value ≠ "" := by
  unfold require
  split_ifs with h
  · constructor
    · intro hok
      cases hok
    · exact absurd h
  · exact iff_of_true rfl h

theorem parameter_eq_ok {token : String} {n : ParameterName} :
    parameter token = .ok n ↔ token = n.token := by
  rw [← ParameterName.ofToken?_eq_some]
  unfold parameter
  cases ParameterName.ofToken? token <;> simp

theorem forM_require_eq_ok {α : Type} {field : String} {f : α → String} {l : List α} :
    (l.forM fun a => require field (f a)) = .ok () ↔ ∀ a ∈ l, f a ≠ "" := by
  simp only [forM_eq_ok, require_eq_ok]

theorem succeeds_forM_require {α β : Type} {field : String} {f : α → String} {l : List α}
    {b : β} : Succeeds ((l.forM fun a => require field (f a)) >>= fun _ => .ok b) ↔
      ∀ a ∈ l, f a ≠ "" := by
  rw [succeeds_bind_unit, forM_require_eq_ok]
  exact and_iff_left (succeeds_ok b)

theorem succeeds_require {β : Type} {field value : String} {x : Except CodecError β} :
    Succeeds (require field value >>= fun _ => x) ↔ value ≠ "" ∧ Succeeds x := by
  rw [succeeds_bind_unit, require_eq_ok]

section Strings

theorem whole_strings (l : List String) (room : Nat) : Json.Whole (room + 1) (Json.strings l) := by
  apply Json.Whole.array
  intro v hv
  obtain ⟨s, -, rfl⟩ := List.mem_map.mp hv
  exact .string s

theorem ordered_strings (l : List String) : Json.Ordered (Json.strings l) := by
  apply Json.Ordered.array
  intro v hv
  obtain ⟨s, -, rfl⟩ := List.mem_map.mp hv
  exact .string s

theorem reread_strings (l : List String) : (Json.strings l).reread = Json.strings l := by
  rw [(whole_strings l 0).reread_eq, (ordered_strings l).arranged_eq]

private theorem strings_eq_ok {field : String} {v : Json} {l : List String} :
    strings field v = .ok l ↔ v = .strings l := by
  constructor
  · intro h
    cases v with
    | array items =>
      have hitems := (mapM_eq_ok.mp h).imp (S := fun i s => i = Json.string s) fun i s his => by
        cases i with
        | string s' => rw [Except.ok.inj his]
        | _ => cases his
      rw [forall₂_eq_iff.mp hitems]
      rfl
    | _ => cases h
  · intro h
    rw [h]
    apply mapM_map_of_inverse
    intro s
    rfl

theorem strings_strings (field : String) (l : List String) :
    strings field (Json.strings l) = .ok l := strings_eq_ok.mpr rfl

end Strings

theorem validateValue_eq_ok {type : MessageType} {v : Json} : validateValue type v = .ok () ↔
    ∃ schema, Schema.ofType? type = some schema ∧ schema.fault? v = none := by
  unfold validateValue
  cases Schema.ofType? type with
  | none => simp
  | some schema => cases hfault : schema.fault? v <;> simp [hfault]

theorem validated_eq_ok {e : Envelope} {v : Json} : validated e = .ok v ↔
    ∃ schema, Schema.ofType? (Topic.messageType e.channel) = some schema ∧ json e = .ok v ∧
      schema.fault? v = none := by
  unfold validated
  dsimp only
  constructor
  · intro h
    split_ifs at h
    obtain ⟨v', hv', h⟩ := bind_eq_ok.mp h
    obtain ⟨⟨⟩, hvalid, h⟩ := bind_eq_ok.mp h
    cases h
    obtain ⟨schema, hschema, hfault⟩ := validateValue_eq_ok.mp hvalid
    exact ⟨schema, hschema, hv', hfault⟩
  · intro h
    obtain ⟨schema, hschema, hv, hfault⟩ := h
    have hvalid := validateValue_eq_ok.mpr ⟨schema, hschema, hfault⟩
    have hsome : ¬ (Schema.ofType? (Topic.messageType e.channel)).isNone = true := by
      simp [hschema]
    rw [if_neg hsome]
    exact bind_eq_ok.mpr ⟨v, hv, bind_eq_ok.mpr ⟨(), hvalid, rfl⟩⟩

theorem json_eq_ok {e : Envelope} {v : Json} : json e = .ok v ↔ Json.parse e.content = .ok v :=
  mapError_eq_ok

theorem ordered_of_json {e : Envelope} {v : Json} (h : json e = .ok v) : Json.Ordered v :=
  Json.ordered_of_parse (json_eq_ok.mp h)

section Content

variable {channel : String} {v : Json}

theorem json_encode_reread (h : Json.Legible Json.maxDepth v) :
    json ⟨channel, v.encode⟩ = .ok v.reread := by
  rw [json, Json.parse_encode_reread h]
  rfl

theorem json_encode_arranged (hw : Json.Whole Json.maxDepth v) :
    json ⟨channel, v.encode⟩ = .ok v.arranged := by
  rw [json_encode_reread hw.legible, hw.reread_eq]

theorem json_encode (hw : Json.Whole Json.maxDepth v) (ho : Json.Ordered v) :
    json ⟨channel, v.encode⟩ = .ok v := by
  rw [json_encode_arranged hw, ho.arranged_eq]

theorem json_strings (l : List String) : json ⟨channel, (Json.strings l).encode⟩ =
    .ok (Json.strings l) := json_encode (whole_strings l 126) (ordered_strings l)

section Validated

variable {schema : Schema} (hschema : Schema.ofType? (Topic.messageType channel) = some schema)

include hschema

theorem validated_encode_eq_ok (h : Json.Legible Json.maxDepth v) {v' : Json} :
    validated ⟨channel, v.encode⟩ = .ok v' ↔ v' = v.reread ∧ schema.fault? v.reread = none := by
  rw [validated_eq_ok]
  simp only [hschema, json_encode_reread h, Option.some.injEq, Except.ok.injEq, exists_eq_left']
  constructor
  · intro hv
    obtain ⟨rfl, hfault⟩ := hv
    exact ⟨rfl, hfault⟩
  · intro hv
    obtain ⟨rfl, hfault⟩ := hv
    exact ⟨rfl, hfault⟩

theorem succeeds_validated_encode (h : Json.Legible Json.maxDepth v) :
    Succeeds (validated ⟨channel, v.encode⟩) ↔ schema.fault? v.reread = none := by
  constructor
  · rintro ⟨v', hv'⟩
    exact ((validated_encode_eq_ok hschema h).mp hv').2
  · intro hfault
    exact ⟨_, (validated_encode_eq_ok hschema h).mpr ⟨rfl, hfault⟩⟩

theorem validated_encode (hw : Json.Whole Json.maxDepth v)
    (hfault : schema.fault? v.arranged = none) :
    validated ⟨channel, v.encode⟩ = .ok v.arranged := by
  rw [← hw.reread_eq] at hfault ⊢
  exact (validated_encode_eq_ok hschema hw.legible).mpr ⟨rfl, hfault⟩

end Validated

theorem typed_encode {α : Type} {shape : Json.Shape α} {a : α}
    (h : shape.Reads Json.maxDepth v a) : typed shape ⟨channel, v.encode⟩ = .ok a := by
  rw [typed, h.parse_encode]
  rfl

theorem typed_render {α : Type} {shape : Json.Shape α} {a : α}
    (h : shape.ReadsBack Json.maxDepth a) :
    typed shape ⟨channel, Text.encode (shape.render a)⟩ = .ok a := by
  rw [typed, h.parse_render]
  rfl

end Content

end DeviceLink.Payload
