import DeviceLink.Proofs.Codec.Conformance
import DeviceLink.Proofs.Codec.Validity
import DeviceLink.Proofs.Json.Natural
import DeviceLink.Proofs.Schema

/-! The format of feed values: which JSON is read as readings and which readings these are, and how
much of what is sent is in this format. -/
namespace DeviceLink.Data

/-- The values of a feed: a truth value, a number, a string, or numbers in an array that is not
empty. -/
inductive IsFeedValue : Json → Prop
  | bool (b : Bool) : IsFeedValue (.bool b)
  | number (x : Json.Number) : IsFeedValue (.number x)
  | string (s : String) : IsFeedValue (.string s)
  | numbers {items : List Json} :
    items ≠ [] → (∀ v ∈ items, ∃ x, v = .number x) → IsFeedValue (.array items)

/-- A group of values: an object that tells its time in an unsigned number of 64 bits. -/
def IsGroup (g : Json) : Prop :=
  ∃ members n, g = .object members ∧ n < limit64 ∧
    Ascending.find? timestampName members = some (.ofNat n) ∧
    ∀ m ∈ members, m.1 ≠ timestampName → IsFeedValue m.2

def IsFeedValues (v : Json) : Prop := ∃ groups, v = .array groups ∧ ∀ g ∈ groups, IsGroup g

inductive Texts : Json → List String → Prop
  | bool (b : Bool) : Texts (.bool b) [if b then "true" else "false"]
  | number (x : Json.Number) : Texts (.number x) [(Json.number x).text]
  | string (s : String) : Texts (.string s) [s]
  | numbers (x : Json.Number) (more : List Json.Number) :
    Texts (.array ((x :: more).map .number)) ((x :: more).map fun x => (Json.number x).text)

/-- The readings of a group, one for each member besides the time, in ascending order of the octets
of the references. -/
def GroupReads (g : Json) (l : List Reading) : Prop :=
  ∃ members n, g = .object members ∧ n < limit64 ∧
    Ascending.find? timestampName members = some (.ofNat n) ∧
    (members.Pairwise fun a b => Text.encode a.1 < Text.encode b.1) ∧
    List.Forall₂ (fun m r => r.reference = m.1 ∧ r.timestamp = .ofNat n ∧ Texts m.2 r.values)
      (members.filter fun m => m.1 ≠ timestampName) l

section Texts

variable {v : Json} {l : List String}

theorem exists_texts_iff : (∃ t more, Texts v (t :: more)) ↔ IsFeedValue v := by
  constructor
  · intro h
    obtain ⟨t, more, h⟩ := h
    cases h with
    | bool b => exact .bool b
    | number x => exact .number x
    | string => exact .string t
    | numbers x more =>
      refine .numbers (List.cons_ne_nil _ _) ?_
      intro v hv
      obtain ⟨x, -, rfl⟩ := List.mem_map.mp hv
      exact ⟨x, rfl⟩
  · intro h
    cases h with
    | bool b => exact ⟨_, _, .bool b⟩
    | number x => exact ⟨_, _, .number x⟩
    | string s => exact ⟨_, _, .string s⟩
    | @numbers items hne hitems =>
      obtain ⟨numbers, rfl⟩ := exists_eq_map hitems
      cases numbers with
      | nil => exact absurd rfl hne
      | cons x more => exact ⟨_, _, .numbers x more⟩

theorem forall₂_number_iff {items : List Json} :
    List.Forall₂ (fun v text => ∃ n, v = .number n ∧ text = String.ofList n.chars) items l ↔
      ∃ numbers : List Json.Number, items = numbers.map .number ∧
        l = numbers.map fun x => (Json.number x).text := by
  constructor
  · intro h
    induction h with
    | nil => exact ⟨[], rfl, rfl⟩
    | cons hx _ ih =>
      obtain ⟨x, rfl, rfl⟩ := hx
      obtain ⟨numbers, rfl, rfl⟩ := ih
      exact ⟨x :: numbers, rfl, rfl⟩
  · intro h
    obtain ⟨numbers, rfl, rfl⟩ := h
    rw [List.forall₂_map_left_iff, List.forall₂_map_right_iff, List.forall₂_same]
    exact fun x _ => ⟨x, rfl, rfl⟩

theorem ofJson?_iff_texts (hv : ∀ items, v ≠ .array items) :
    (∃ text, Value.ofJson? v = some text ∧ l = [text]) ↔ Texts v l := by
  constructor
  · intro h
    obtain ⟨text, htext, rfl⟩ := h
    cases v with
    | bool b =>
      cases htext
      exact .bool b
    | number x =>
      cases htext
      exact .number x
    | string =>
      cases htext
      exact .string text
    | _ => cases htext
  · intro h
    cases h with
    | numbers x more => exact absurd rfl (hv _)
    | _ => exact ⟨_, rfl, rfl⟩

theorem memberMakes_iff {timestamp : UInt64} {m : String × Json} {r : Reading} :
    MemberMakes timestamp m r ↔
      r.reference = m.1 ∧ r.timestamp = timestamp ∧ Texts m.2 r.values := by
  obtain ⟨name, v⟩ := m
  unfold MemberMakes
  refine and_congr_right fun _ => and_congr_right fun _ => ?_
  cases v with
  | array items =>
    dsimp only
    rw [forall₂_number_iff]
    constructor
    · intro h
      obtain ⟨numbers, rfl, hvalues⟩ := h
      rw [hvalues]
      cases numbers with
      | nil => cases hvalues
      | cons x more => exact .numbers x more
    · intro h
      generalize r.values = values at h
      cases h with
      | numbers x more => exact ⟨x :: more, rfl, rfl⟩
  | _ => exact ofJson?_iff_texts nofun

end Texts

section Groups

variable {g v : Json} {l : List Reading}

theorem time_eq_some {members : List (String × Json)} {n : Nat} :
    (Ascending.find? timestampName members).bind Json.natural? = some n ↔
      n < limit64 ∧ Ascending.find? timestampName members = some (.ofNat n) := by
  rw [Option.bind_eq_some_iff]
  simp only [natural?_eq_some]
  constructor
  · intro h
    obtain ⟨_, hfind, hn, rfl⟩ := h
    exact ⟨hn, hfind⟩
  · intro h
    exact ⟨_, h.2, h.1, rfl⟩

theorem groupMakes_iff (hg : Json.Ordered g) : GroupMakes g l ↔ GroupReads g l := by
  constructor
  · intro h
    obtain ⟨members, n, rfl, htime, hl⟩ := h
    obtain ⟨hn, htime⟩ := time_eq_some.mp htime
    exact ⟨members, n, rfl, hn, htime, hg.ascending, hl.imp fun _ _ =>
      memberMakes_iff.mp⟩
  · intro h
    obtain ⟨members, n, rfl, hn, htime, -, hl⟩ := h
    exact ⟨members, n, rfl, time_eq_some.mpr ⟨hn, htime⟩, hl.imp fun _ _ =>
      memberMakes_iff.mpr⟩

theorem exists_groupReads_iff (hg : Json.Ordered g) : (∃ l, GroupReads g l) ↔ IsGroup g := by
  constructor
  · intro h
    obtain ⟨l, members, n, rfl, hn, htime, -, hl⟩ := h
    refine ⟨members, n, rfl, hn, htime, fun m hm hname => ?_⟩
    have hvalue : ∀ m ∈ members.filter fun m => m.1 ≠ timestampName, IsFeedValue m.2 :=
      forall_of_forall₂ hl fun m r hr => exists_texts_iff.mp ⟨r.value, r.more, hr.2.2⟩
    exact hvalue m (List.mem_filter.mpr ⟨hm, decide_eq_true hname⟩)
  · intro h
    obtain ⟨members, n, rfl, hn, htime, hvalues⟩ := h
    have hreading : ∀ m ∈ members.filter fun m => m.1 ≠ timestampName, ∃ r : Reading,
        r.reference = m.1 ∧ r.timestamp = .ofNat n ∧ Texts m.2 r.values := by
      intro m hm
      obtain ⟨hmem, hname⟩ := List.mem_filter.mp hm
      obtain ⟨t, more, htexts⟩ := exists_texts_iff.mpr (hvalues m hmem (of_decide_eq_true hname))
      exact ⟨⟨m.1, t, more, .ofNat n⟩, rfl, rfl, htexts⟩
    obtain ⟨l, hl⟩ := exists_forall₂ hreading
    exact ⟨l, members, n, rfl, hn, htime, hg.ascending, hl⟩

theorem fault?_of_isFeedValues (h : IsFeedValues v) : Schema.feedValues.fault? v = none := by
  obtain ⟨groups, rfl, hgroups⟩ := h
  apply fault?_feedValues
  intro g hg
  obtain ⟨members, n, rfl, -, htime, -⟩ := hgroups g hg
  exact ⟨members, n, rfl, htime⟩

end Groups

section Messages

variable {e : Envelope}

theorem ordered_items {groups : List Json} (h : Json.Ordered (.array groups)) :
    ∀ g ∈ groups, Json.Ordered g := by
  cases h with
  | array hgroups => exact hgroups

theorem forall₂_groupMakes_iff {groups : List Json} {parts : List (List Reading)}
    (h : Json.Ordered (.array groups)) :
    List.Forall₂ GroupMakes groups parts ↔ List.Forall₂ GroupReads groups parts := by
  have hordered := ordered_items h
  constructor
  · intro hparts
    exact ((List.forall₂_and_left groups parts).mpr ⟨hordered, hparts⟩).imp fun _ _ hg =>
      (groupMakes_iff hg.1).mp hg.2
  · intro hparts
    exact ((List.forall₂_and_left groups parts).mpr ⟨hordered, hparts⟩).imp fun _ _ hg =>
      (groupMakes_iff hg.1).mpr hg.2

theorem isFeedValues_iff_exists {v : Json} (h : Json.Ordered v) : IsFeedValues v ↔
    ∃ groups parts, v = .array groups ∧ List.Forall₂ GroupReads groups parts := by
  constructor
  · intro hv
    obtain ⟨groups, rfl, hgroups⟩ := hv
    have hordered := ordered_items h
    obtain ⟨parts, hparts⟩ := exists_forall₂ fun g hg =>
      (exists_groupReads_iff (hordered g hg)).mpr (hgroups g hg)
    exact ⟨groups, parts, rfl, hparts⟩
  · intro hv
    obtain ⟨groups, parts, rfl, hparts⟩ := hv
    have hordered := ordered_items h
    have hboth := (List.forall₂_and_left groups parts).mpr ⟨hordered, hparts⟩
    exact ⟨groups, rfl, forall_of_forall₂ hboth fun g l hg =>
      (exists_groupReads_iff hg.1).mp ⟨l, hg.2⟩⟩

theorem readFeedValues_eq_ok_iff {m : Message} (htype : Topic.messageType e.channel = .feedValues) :
    readFeedValues e = .ok m ↔ ∃ groups parts, Payload.json e = .ok (.array groups) ∧
      List.Forall₂ GroupReads groups parts ∧ m = .feedValues parts.flatten := by
  rw [readFeedValues_eq_ok]
  constructor
  · intro h
    obtain ⟨v, hv, groups, parts, rfl, hparts, rfl⟩ := h
    obtain ⟨-, -, hjson, -⟩ := Payload.validated_eq_ok.mp hv
    exact ⟨groups, parts, hjson,
      (forall₂_groupMakes_iff (Payload.ordered_of_json hjson)).mp hparts, rfl⟩
  · intro h
    obtain ⟨groups, parts, hjson, hparts, rfl⟩ := h
    have hordered := Payload.ordered_of_json hjson
    have hformat := (isFeedValues_iff_exists hordered).mpr ⟨groups, parts, rfl, hparts⟩
    have hschema : Schema.ofType? (Topic.messageType e.channel) = some Schema.feedValues := by
      rw [htype]
      rfl
    have hvalid := Payload.validated_eq_ok.mpr
      ⟨_, hschema, hjson, fault?_of_isFeedValues hformat⟩
    exact ⟨_, hvalid, groups, parts, rfl, (forall₂_groupMakes_iff hordered).mpr hparts, rfl⟩

theorem parse_feedValues_eq_some {m : Message}
    (htype : Topic.messageType e.channel = .feedValues) :
    (Area.data.parseAs .feedValues e).value = some m ↔ readFeedValues e = .ok m := by
  have hreader : Area.data.reader? .feedValues = some readFeedValues := rfl
  rw [Area.parseAs_eq_some hreader]
  exact and_iff_right htype

theorem isSome_parse_feedValues (htype : Topic.messageType e.channel = .feedValues) :
    (Area.data.parseAs .feedValues e).value.isSome ↔
      ∃ v, Payload.json e = .ok v ∧ IsFeedValues v := by
  rw [Option.isSome_iff_exists]
  simp only [parse_feedValues_eq_some htype, readFeedValues_eq_ok_iff htype]
  constructor
  · intro h
    obtain ⟨-, groups, parts, hjson, hparts, -⟩ := h
    exact ⟨_, hjson, (isFeedValues_iff_exists (Payload.ordered_of_json hjson)).mpr
      ⟨groups, parts, rfl, hparts⟩⟩
  · intro h
    obtain ⟨v, hjson, hformat⟩ := h
    obtain ⟨groups, parts, rfl, hparts⟩ :=
      (isFeedValues_iff_exists (Payload.ordered_of_json hjson)).mp hformat
    exact ⟨_, groups, parts, hjson, hparts, rfl⟩

/-- Content is read as feed values exactly if it is JSON in their format, and then as one reading
for each value, group by group and in each group in the order of the octets of the references; one
value out of format leaves no reading at all. A time is written with digits alone, no sign before
them and neither fraction nor exponent behind them, and is less than `2 ^ 64`. -/
theorem feed_values_format (htype : Topic.messageType e.channel = .feedValues) :
    ((Area.data.parseAs .feedValues e).value.isSome ↔
      ∃ v, Payload.json e = .ok v ∧ IsFeedValues v) ∧
    (∀ m, (Area.data.parseAs .feedValues e).value = some m ↔
      ∃ groups parts, Payload.json e = .ok (.array groups) ∧
        List.Forall₂ GroupReads groups parts ∧ m = .feedValues parts.flatten) ∧
    ∀ room s n rest, Json.readValue room s = .ok (.ofNat n, rest) ↔
      n < limit64 ∧ Json.skipBlanks s = Text.octets (Text.decimal n) ++ rest ∧
        Json.EndsNumber rest := by
  refine ⟨isSome_parse_feedValues htype, ?_, fun room s n rest => Json.readValue_eq_ofNat⟩
  intro m
  rw [parse_feedValues_eq_some htype, readFeedValues_eq_ok_iff htype]

end Messages

def unsortedGroups : Json := .array
  [.object [("timestamp", .ofNat 7), ("T", .array [.ofNat 1, .number (.integer (-2))]),
    ("A", .bool true)],
    .object [("B", .string ""), ("timestamp", .ofNat 5)]]

private theorem whole_unsortedGroups : Json.Whole Json.maxDepth unsortedGroups := by
  have hnumber : ∀ (n : Int) (room : Nat), -2 ≤ n → n ≤ 7 →
      Json.Whole room (.number (.integer n)) := by
    intro n room hlo hhi
    apply Json.Whole.integer
    · unfold limit63
      omega
    · unfold limit64
      omega
  refine .array (List.forall_mem_cons.mpr ⟨.object ?_, List.forall_mem_singleton.mpr (.object ?_)⟩)
  · have hitems : ∀ v ∈ [Json.ofNat 1, .number (.integer (-2))], Json.Whole 124 v :=
      List.forall_mem_cons.mpr ⟨hnumber 1 _ (by decide) (by decide),
        List.forall_mem_singleton.mpr (hnumber (-2) _ (by decide) (by decide))⟩
    exact List.forall_mem_cons.mpr ⟨hnumber 7 _ (by decide) (by decide),
      List.forall_mem_cons.mpr ⟨.array hitems, List.forall_mem_singleton.mpr (.bool true)⟩⟩
  · exact List.forall_mem_cons.mpr ⟨.string "",
      List.forall_mem_singleton.mpr (hnumber 5 _ (by decide) (by decide))⟩

theorem feed_values_format_unsorted :
    let e : Envelope := ⟨"d2p/a/b/feed_values", unsortedGroups.encode⟩
    Topic.messageType e.channel = .feedValues ∧
      (Area.data.parseAs .feedValues e).value =
        some (.feedValues [⟨"A", "true", [], 7⟩, ⟨"T", "1", ["-2"], 7⟩, ⟨"B", "", [], 5⟩]) := by
  intro e
  have htype : Topic.messageType e.channel = .feedValues := by decide
  have hjson : Payload.json e = .ok unsortedGroups.arranged :=
    Payload.json_encode_arranged whole_unsortedGroups
  have hlater : GroupReads (.object [("A", .bool true),
      ("T", .array [.ofNat 1, .number (.integer (-2))]), ("timestamp", .ofNat 7)])
      [⟨"A", "true", [], 7⟩, ⟨"T", "1", ["-2"], 7⟩] :=
    ⟨_, 7, rfl, by decide, rfl, by decide, .cons ⟨rfl, rfl, .bool true⟩
      (.cons ⟨rfl, rfl, .numbers (.integer 1) [.integer (-2)]⟩ .nil)⟩
  have hearlier : GroupReads (.object [("B", .string ""), ("timestamp", .ofNat 5)])
      [⟨"B", "", [], 5⟩] :=
    ⟨_, 5, rfl, by decide, rfl, by decide, .cons ⟨rfl, rfl, .string ""⟩ .nil⟩
  obtain ⟨-, hparse, -⟩ := feed_values_format htype
  exact ⟨htype, (hparse _).mpr ⟨_, _, hjson, .cons hlater (.cons hearlier .nil), rfl⟩⟩

section Sent

theorem exists_number_reread {v : Json} : (∃ x, v.reread = .number x) ↔ ∃ x, v = .number x := by
  cases v with
  | number x => cases x <;> simp [Json.reread]
  | _ => simp [Json.reread]

theorem isFeedValue_array {items : List Json} : IsFeedValue (.array items) ↔
    items ≠ [] ∧ ∀ v ∈ items, ∃ x, v = .number x := by
  constructor
  · intro h
    cases h with
    | numbers hne hitems => exact ⟨hne, hitems⟩
  · intro h
    exact .numbers h.1 h.2

private theorem isFeedValue_toJson (v : String) : IsFeedValue (Value.toJson v).reread := by
  by_cases h : Value.IsNumeric v
  · obtain ⟨x, hx⟩ := exists_number_reread.mpr (Value.toJson_of_numeric h)
    rw [hx]
    exact .number x
  · rcases Value.toJson_of_not_numeric h with ⟨b, hb⟩ | hstring
    · rw [hb]
      exact .bool b
    · rw [hstring]
      exact .string v

/-- Several values are in format exactly if all are numbers; a single one always is. -/
theorem isFeedValue_readingValue (r : Reading) : IsFeedValue (readingValue r).reread ↔
    (r.isMulti → ∀ v ∈ r.values, Value.IsNumeric v) := by
  unfold readingValue
  split_ifs with hmulti
  · have hne : (r.values.map Value.toJson).map Json.reread ≠ [] := by
      simp [Reading.values]
    rw [Json.reread_array, isFeedValue_array, and_iff_right hne, List.forall_mem_map,
      List.forall_mem_map]
    simp only [exists_number_reread, Value.exists_number_iff]
    exact ⟨fun hvalues _ => hvalues, fun hvalues => hvalues hmulti⟩
  · exact iff_of_true (isFeedValue_toJson r.value) fun h => absurd h hmulti

variable {readings : List Reading} {groups : Groups}

theorem isGroup_reread {timestamp : UInt64} {members : List (String × Json)}
    (h : GroupOf readings timestamp members) :
    IsGroup (.object (members.map fun m => (m.1, m.2.reread))) ↔
      ∀ m ∈ members, m.1 ≠ timestampName → IsFeedValue m.2.reread := by
  constructor
  · intro hg
    obtain ⟨_, n, ⟨⟩, -, -, hvalues⟩ := hg
    exact List.forall_mem_map.mp hvalues
  · intro hvalues
    exact ⟨_, timestamp.toNat, rfl, timestamp.toNat_lt, find?_time_reread h,
      List.forall_mem_map.mpr hvalues⟩

/-- What is sent is in format exactly if, of the readings that are not replaced by a later one,
those of several values have nothing but numbers. -/
theorem isFeedValues_groupsJson (h : Grouped readings groups) :
    IsFeedValues (groupsJson groups).reread ↔
      ∀ r ∈ readings, lastOf readings r.timestamp r.reference = some r → r.isMulti →
        ∀ v ∈ r.values, Value.IsNumeric v := by
  rw [reread_groupsJson h]
  constructor
  · intro hformat r hr hlast
    obtain ⟨_, ⟨⟩, hgroups⟩ := hformat
    obtain ⟨members, hmembers⟩ := Option.isSome_iff_exists.mp (h.times r hr)
    have hg : (r.timestamp, members) ∈ groups := Ascending.mem_of_find? hmembers
    have hgroup := h.groupOf _ hg
    have hname := h.names r hr
    have hvalue : Ascending.find? r.reference members = some (readingValue r) := by
      rw [hgroup.values _ hname, hlast, Option.map_some]
    rw [List.forall_mem_map] at hgroups
    have hvalues := (isGroup_reread hgroup).mp (hgroups _ hg)
    exact (isFeedValue_readingValue r).mp (hvalues _ (Ascending.mem_of_find? hvalue) hname)
  · intro hnumeric
    refine ⟨_, rfl, List.forall_mem_map.mpr fun g hg => ?_⟩
    refine (isGroup_reread (h.groupOf g hg)).mpr fun m hm hname => ?_
    rcases (h.groupOf g hg).member hm with ⟨htime, -⟩ | ⟨-, r, hr, hvalue⟩
    · exact absurd htime hname
    · obtain ⟨hmem, htime, hreference⟩ := of_lastOf hr
      rw [← htime, ← hreference] at hr
      rw [hvalue]
      exact (isFeedValue_readingValue r).mpr (hnumeric r hmem hr)

theorem isSome_parse_groupsJson (h : Grouped readings groups) (key : String) :
    (Area.data.parseAs .feedValues ⟨Topic.channel .deviceToPlatform key .feedValues,
      (groupsJson groups).encode⟩).value.isSome ↔
        ∀ r ∈ readings, lastOf readings r.timestamp r.reference = some r → r.isMulti →
          ∀ v ∈ r.values, Value.IsNumeric v := by
  have htype : Topic.messageType (Topic.channel .deviceToPlatform key .feedValues) =
      .feedValues := Area.messageType_of_schema (t := .feedValues) (by decide) _ _
  refine Iff.trans (isSome_parse_feedValues htype) ?_
  rw [json_groupsJson h, ← isFeedValues_groupsJson h]
  simp only [Except.ok.injEq, exists_eq_left']

/-- Readings that are sent are read exactly if, of those that no later reading of the same feed and
time replaces, all that have several values have numbers only. -/
theorem sent_values_read_iff {key : String} {e : Envelope}
    (h : (Area.data.make key (.feedValues readings)).value = some e) :
    (Area.data.parseAs .feedValues e).value.isSome ↔
      ∀ r ∈ readings, lastOf readings r.timestamp r.reference = some r → r.isMulti →
        ∀ v ∈ r.values, Value.IsNumeric v := by
  obtain ⟨groups, hfold, rfl⟩ := make_feedValues h
  exact isSome_parse_groupsJson (grouped_of_foldlM hfold) key

def severalValues : List Reading :=
  [⟨"T", "1", ["-2", "0.5"], 5⟩, ⟨"T", "on", ["off"], 4⟩, .single "T" "off" 4]

theorem sent_values_read_iff_several :
    ∃ e, (Area.data.make "K" (.feedValues severalValues)).value = some e ∧
      (Area.data.parseAs .feedValues e).value.isSome := by
  have hmake : (Area.data.make "K" (.feedValues severalValues)).value.isSome = true := rfl
  have hhalf : ((Value.double? "0.5").map Double.isFinite) = some true := by decide +kernel
  have hnumbers : ∀ v ∈ ["1", "-2", "0.5"], Value.IsNumeric v := by
    refine List.forall_mem_cons.mpr ⟨Or.inl (by decide), ?_⟩
    refine List.forall_mem_cons.mpr ⟨Or.inr (Or.inl (by decide)), ?_⟩
    refine List.forall_mem_singleton.mpr (Or.inr (Or.inr ⟨by decide, ?_⟩))
    exact Option.map_eq_some_iff.mp hhalf
  have hnumeric : ∀ r ∈ severalValues, lastOf severalValues r.timestamp r.reference = some r →
      r.isMulti → ∀ v ∈ r.values, Value.IsNumeric v := by
    intro r hr hlast hmulti
    simp only [severalValues, List.mem_cons, List.not_mem_nil, or_false] at hr
    rcases hr with rfl | rfl | rfl
    · exact hnumbers
    · exact absurd hlast (by decide)
    · exact absurd hmulti (by decide)
  obtain ⟨e, he⟩ := Option.isSome_iff_exists.mp hmake
  exact ⟨e, he, (sent_values_read_iff he).mpr hnumeric⟩

/-- Texts of one reading are sent in an array, where they are not read. -/
theorem text_values_not_read :
    ∃ e, (Area.data.make "D" (.feedValues [⟨"A", "x", ["y"], 1⟩])).value = some e ∧
      (Area.data.parseAs .feedValues e).value = none := by
  have hmake : (Area.data.make "D" (.feedValues [⟨"A", "x", ["y"], 1⟩])).value.isSome = true := rfl
  obtain ⟨e, he⟩ := Option.isSome_iff_exists.mp hmake
  obtain ⟨groups, hfold, rfl⟩ := make_feedValues he
  refine ⟨_, he, Option.not_isSome_iff_eq_none.mp ?_⟩
  rw [isSome_parse_groupsJson (grouped_of_foldlM hfold)]
  intro hnumeric
  have hx := hnumeric _ (List.mem_singleton_self _) rfl rfl "x" List.mem_cons_self
  rcases hx with hkind | hkind | ⟨hkind, -⟩
  · exact absurd hkind (by decide)
  · exact absurd hkind (by decide)
  · exact absurd hkind (by decide)

end Sent

end DeviceLink.Data
