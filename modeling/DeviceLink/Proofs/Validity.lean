import DeviceLink.Device
import DeviceLink.Proofs.Json.Narrowing
import DeviceLink.Proofs.Parameter
import DeviceLink.Reading

/-! Readings, feeds and attributes are made of valid data only: from raw data that break a rule
nothing is made, and what is made holds all of its raw data, whether a program or a stored text
brings them. -/
namespace DeviceLink

open Json (Shape)

/-- A result is had exactly where raw data make it, and raw data with a defect make none. -/
structure Guards {ρ α : Type} (raw : ρ → Prop) (result : α → Prop) (Makes : ρ → α → Prop)
    (Defective : ρ → Prop) : Prop where
  exact : ∀ a, result a ↔ ∃ x, raw x ∧ Makes x a
  refused : ∀ x, raw x → Defective x → ∀ a, ¬ result a

theorem Guards.of {ρ α : Type} {raw : ρ → Prop} {result : α → Prop} {Makes : ρ → α → Prop}
    {Defective : ρ → Prop} (hraw : ∀ x y, raw x → raw y → x = y)
    (hexact : ∀ a, result a ↔ ∃ x, raw x ∧ Makes x a) (hmakes : ∀ x a, Makes x a → ¬ Defective x) :
    Guards raw result Makes Defective where
  exact := hexact
  refused x hx hdefective a ha := by
    obtain ⟨y, hy, hya⟩ := (hexact a).mp ha
    cases hraw x y hx hy
    exact hmakes x a hya hdefective

theorem guards_of_make {ρ α : Type} {x : ρ} {result : α → Prop} {f : α → ρ} {Defective : ρ → Prop}
    (hmake : ∀ a, result a ↔ x = f a) (hf : ∀ a, ¬ Defective (f a)) :
    Guards (· = x) result (fun x a => x = f a) Defective := by
  apply Guards.of
  · rintro _ _ rfl rfl
    rfl
  · simp only [exists_eq_left, hmake, implies_true]
  · rintro _ a rfl
    exact hf a

/-- A narrow shape guards what it reads. -/
theorem guards_of_narrows {α ρ : Type} {narrow : Shape α} {wide : Shape ρ} {Makes : ρ → α → Prop}
    {Defective : ρ → Prop} (h : narrow.Narrows wide Makes)
    (hmakes : ∀ x a, Makes x a → ¬ Defective x) (s : Octets) :
    Guards (fun x => wide.parse s = .ok x) (fun a => narrow.parse s = .ok a) Makes Defective :=
  Guards.of (fun _ _ hx hy => Except.ok.inj (hx.symm.trans hy)) (fun _ => h.parse_eq_ok) hmakes

namespace Reading

structure Raw where
  reference : String
  values : List String
  timestamp : UInt64
  deriving DecidableEq

def raw (r : Reading) : Raw := ⟨r.reference, r.values, r.timestamp⟩

def Raw.Defective (x : Raw) : Prop := x.values = []

theorem not_defective_raw (r : Reading) : ¬ r.raw.Defective := List.cons_ne_nil _ _

theorem ofValues?_eq_ok {x : Raw} {r : Reading} :
    ofValues? x.reference x.values x.timestamp = .ok r ↔ x = r.raw := by
  obtain ⟨reference, values, timestamp⟩ := x
  constructor
  · intro h
    cases values with
    | nil => cases h
    | cons v more =>
      cases h
      rfl
  · rintro ⟨⟩
    rfl

/-- The stored form without a check of the values. -/
def fields : Shape Raw :=
  .refine
    (.record (.required "reference" .text (.required "values" (.list .text)
      (.required "timestamp" .uint64 .nil))))
    (fun (reference, values, timestamp, ()) => .ok ⟨reference, values, timestamp⟩)
    fun x => (x.reference, x.values, x.timestamp, ())

theorem narrows_fields : stored.Narrows fields fun x r => x = r.raw := by
  apply (Shape.narrows_refl _).checked
  rintro ⟨reference, values, timestamp, ⟨⟩⟩ r
  simp only [exists_eq_left', mapError_eq_ok, Except.ok.injEq]
  exact ofValues?_eq_ok (x := ⟨reference, values, timestamp⟩)

end Reading

namespace Feed

structure Raw where
  name : String
  reference : String
  type : FeedType
  unit : String
  deriving DecidableEq

def raw (f : Feed) : Raw := ⟨f.name, f.reference, f.type, f.unit⟩

def Raw.Defective (x : Raw) : Prop := x.name = "" ∨ x.reference = ""

theorem not_defective_raw (f : Feed) : ¬ f.raw.Defective := not_or.mpr ⟨f.name_ne, f.reference_ne⟩

theorem make?_eq_ok {x : Raw} {f : Feed} :
    make? x.name x.reference x.type x.unit = .ok f ↔ x = f.raw := by
  obtain ⟨name, reference, type, unit⟩ := x
  unfold make?
  split_ifs with hname hreference
  · refine iff_of_false nofun fun h => ?_
    exact f.name_ne ((congrArg Raw.name h).symm.trans hname)
  · refine iff_of_false nofun fun h => ?_
    exact f.reference_ne ((congrArg Raw.reference h).symm.trans hreference)
  · constructor
    · rintro ⟨⟩
      rfl
    · rintro ⟨⟩
      rfl

def fields : Shape Raw :=
  .refine
    (.record (.required "name" .text (.required "reference" .text
      (.required "feed_type" (.token FeedType.ofToken? FeedType.token)
        (.required "unit" .text .nil)))))
    (fun (name, reference, type, unit, ()) => .ok ⟨name, reference, type, unit⟩)
    fun x => (x.name, x.reference, x.type, x.unit, ())

theorem narrows_fields : stored.Narrows fields fun x f => x = f.raw := by
  apply (Shape.narrows_refl _).checked
  rintro ⟨name, reference, type, unit, ⟨⟩⟩ f
  simp only [exists_eq_left', mapError_eq_ok, Except.ok.injEq]
  exact make?_eq_ok (x := ⟨name, reference, type, unit⟩)

end Feed

namespace Attribute

structure Raw where
  name : String
  type : DataType
  value : String
  deriving DecidableEq

def raw (a : Attribute) : Raw := ⟨a.name, a.type, a.value⟩

def Raw.Defective (x : Raw) : Prop := x.name = ""

theorem not_defective_raw (a : Attribute) : ¬ a.raw.Defective := a.name_ne

theorem make?_eq_ok {x : Raw} {a : Attribute} :
    make? x.name x.type x.value = .ok a ↔ x = a.raw := by
  obtain ⟨name, type, value⟩ := x
  unfold make?
  split_ifs with hname
  · refine iff_of_false nofun fun h => ?_
    exact a.name_ne ((congrArg Raw.name h).symm.trans hname)
  · constructor
    · rintro ⟨⟩
      rfl
    · rintro ⟨⟩
      rfl

def fields : Shape Raw :=
  .refine
    (.record (.required "name" .text
      (.required "data_type" (.token DataType.ofToken? DataType.token)
        (.required "value" .text .nil))))
    (fun (name, type, value, ()) => .ok ⟨name, type, value⟩)
    fun x => (x.name, x.type, x.value, ())

theorem narrows_fields : stored.Narrows fields fun x a => x = a.raw := by
  apply (Shape.narrows_refl _).checked
  rintro ⟨name, type, value, ⟨⟩⟩ a
  simp only [exists_eq_left', mapError_eq_ok, Except.ok.injEq]
  exact make?_eq_ok (x := ⟨name, type, value⟩)

end Attribute

namespace Device

structure Raw where
  name : String
  key : String
  guid : String
  parameters : List (ParameterName × String)
  feeds : List Feed.Raw
  attributes : List Attribute.Raw
  deriving DecidableEq

/-- One of the feeds or one of the attributes has a defect. -/
def Raw.Defective (x : Raw) : Prop :=
  (∃ f ∈ x.feeds, f.Defective) ∨ ∃ a ∈ x.attributes, a.Defective

/-- A device with all feeds and attributes of the raw data, in their order. -/
def Raw.Makes (x : Raw) (d : Device) : Prop :=
  ∃ parameters, d.parameters = .ofList parameters ∧
    x = ⟨d.name, d.key, d.guid, parameters, d.feeds.map Feed.raw, d.attributes.map Attribute.raw⟩

theorem not_defective_of_makes (x : Raw) (d : Device) (h : x.Makes d) : ¬ x.Defective := by
  obtain ⟨parameters, -, rfl⟩ := h
  rintro (⟨f, hf, hdefective⟩ | ⟨a, ha, hdefective⟩)
  · obtain ⟨f, -, rfl⟩ := List.mem_map.mp hf
    exact f.not_defective_raw hdefective
  · obtain ⟨a, -, rfl⟩ := List.mem_map.mp ha
    exact a.not_defective_raw hdefective

def fields : Shape Raw :=
  .refine
    (.record (.required "name" .text (.required "key" .text (.required "guid" .text
      (.required "parameters" (.dictionary ParameterName.ofToken? ParameterName.token .text)
        (.required "feeds" (.list Feed.fields)
          (.required "attributes" (.list Attribute.fields) .nil)))))))
    (fun (name, key, guid, parameters, feeds, attributes, ()) =>
      .ok ⟨name, key, guid, parameters, feeds, attributes⟩)
    fun x => (x.name, x.key, x.guid, x.parameters, x.feeds, x.attributes, ())

theorem narrows_fields : stored.Narrows fields Raw.Makes := by
  have hattributes := Json.Row.narrows_nil.required Attribute.narrows_fields.list "attributes"
  have hfeeds := hattributes.required Feed.narrows_fields.list "feeds"
  have hparameters := hfeeds.required (Shape.narrows_refl
    (.dictionary ParameterName.ofToken? ParameterName.token .text)) "parameters"
  have hguid := hparameters.required (Shape.narrows_refl .text) "guid"
  have hkey := hguid.required (Shape.narrows_refl .text) "key"
  have hname := hkey.required (Shape.narrows_refl .text) "name"
  apply hname.record.checked
  rintro ⟨name, key, guid, parameters, feeds, attributes, ⟨⟩⟩ d
  constructor
  · rintro ⟨⟨_, _, _, _, feeds', attributes', ⟨⟩⟩, ⟨rfl, rfl, rfl, rfl, hf, ha, -⟩, ⟨⟩⟩
    have hfeeds : feeds = feeds'.map Feed.raw := forall₂_eq_iff.mp hf
    have hattributes : attributes = attributes'.map Attribute.raw := forall₂_eq_iff.mp ha
    subst hfeeds hattributes
    exact ⟨_, rfl, parameters, rfl, rfl⟩
  · rintro ⟨_, ⟨⟩, parameters, hparameters, ⟨⟩⟩
    refine ⟨(d.name, d.key, d.guid, parameters, d.feeds, d.attributes, ()), ?_, ?_⟩
    · exact ⟨rfl, rfl, rfl, rfl, forall₂_eq_iff.mpr rfl, forall₂_eq_iff.mpr rfl, rfl⟩
    · show Except.ok _ = Except.ok d
      rw [← hparameters]

end Device
end DeviceLink
