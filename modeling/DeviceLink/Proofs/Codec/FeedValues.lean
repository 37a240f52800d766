import DeviceLink.Proofs.Codec.Area
import DeviceLink.Proofs.Json.Ordered
import DeviceLink.Proofs.Schema
import DeviceLink.Proofs.Text.Order
import DeviceLink.Proofs.Topic
import DeviceLink.Proofs.Value
import Mathlib.Data.UInt

/-! Feed values: readings that are sent in groups come back one by one, the last of each feed and
time. -/
namespace DeviceLink

def Reading.canonical (r : Reading) : Reading :=
  ⟨r.reference, Value.canonical r.value, r.more.map Value.canonical, r.timestamp⟩

/-- A reading comes before another: it is earlier, or of the same time and of a feed whose
reference has the smaller octets. -/
def Reading.Before (a b : Reading) : Prop :=
  a.timestamp < b.timestamp ∨
    a.timestamp = b.timestamp ∧ Text.encode a.reference < Text.encode b.reference

namespace Data

def lastOf (readings : List Reading) (timestamp : UInt64) (reference : String) : Option Reading :=
  readings.reverse.find? fun r => r.timestamp = timestamp ∧ r.reference = reference

section LastOf

variable {readings : List Reading} {timestamp : UInt64} {reference : String} {r : Reading}

theorem lastOf_concat : lastOf (readings ++ [r]) timestamp reference =
    if r.timestamp = timestamp ∧ r.reference = reference then some r
    else lastOf readings timestamp reference := by
  unfold lastOf
  rw [List.reverse_append, List.reverse_singleton, List.singleton_append, List.find?_cons]
  by_cases h : r.timestamp = timestamp ∧ r.reference = reference
  · rw [if_pos h, decide_eq_true h]
  · rw [if_neg h, decide_eq_false h]

theorem of_lastOf (h : lastOf readings timestamp reference = some r) :
    r ∈ readings ∧ r.timestamp = timestamp ∧ r.reference = reference := by
  have hmem := List.mem_of_find?_eq_some h
  have hr := List.find?_some h
  exact ⟨List.mem_reverse.mp hmem, of_decide_eq_true hr⟩

theorem exists_lastOf (h : r ∈ readings) :
    ∃ last, lastOf readings r.timestamp r.reference = some last := by
  apply Option.isSome_iff_exists.mp
  rw [lastOf, List.find?_isSome]
  exact ⟨r, List.mem_reverse.mpr h, decide_eq_true ⟨rfl, rfl⟩⟩

end LastOf

def groupAt (groups : Groups) (timestamp : UInt64) : List (String × Json) :=
  (Ascending.find? timestamp groups).getD [(timestampName, Json.ofNat timestamp.toNat)]

/-- What a group holds of the readings that went into the groups: its time, and under every other
name the value of the last reading. -/
structure GroupOf (readings : List Reading) (timestamp : UInt64)
    (members : List (String × Json)) : Prop where
  sorted : Ascending.Sorted members
  time : Ascending.find? timestampName members = some (.ofNat timestamp.toNat)
  values : ∀ name ≠ timestampName,
    Ascending.find? name members = (lastOf readings timestamp name).map readingValue

/-- Groups in ascending order, one for each time of a reading. -/
structure Grouped (readings : List Reading) (groups : Groups) : Prop where
  sorted : Ascending.Sorted groups
  groupOf : ∀ g ∈ groups, GroupOf readings g.1 g.2
  times : ∀ r ∈ readings, (Ascending.find? r.timestamp groups).isSome
  names : ∀ r ∈ readings, r.reference ≠ timestampName

theorem addReading_ok {groups groups' : Groups} {r : Reading}
    (h : addReading groups r = .ok groups') : r.reference ≠ timestampName ∧
      groups' = Ascending.insert r.timestamp
        (Ascending.insert r.reference (readingValue r) (groupAt groups r.timestamp)) groups := by
  unfold addReading at h
  obtain ⟨-, -, h⟩ := bind_eq_ok.mp h
  split_ifs at h with hname hvalues
  exact ⟨hname, (Except.ok.inj h).symm⟩

section Step

variable {readings : List Reading} {groups : Groups} {r : Reading}

theorem Grouped.groupAt (h : Grouped readings groups) (timestamp : UInt64) :
    GroupOf readings timestamp (groupAt groups timestamp) := by
  unfold Data.groupAt
  cases hgroup : Ascending.find? timestamp groups with
  | some members => exact h.groupOf (timestamp, members) (Ascending.mem_of_find? hgroup)
  | none =>
    -- Each reading so far has a group, so at a time without one there was none.
    have hnone : ∀ name, lastOf readings timestamp name = none := by
      intro name
      by_contra hsome
      obtain ⟨r, hr⟩ := Option.ne_none_iff_exists'.mp hsome
      obtain ⟨hmem, rfl, -⟩ := of_lastOf hr
      have htime := h.times r hmem
      rw [hgroup] at htime
      cases htime
    refine ⟨List.pairwise_singleton _ _, if_pos rfl, fun name hname => ?_⟩
    rw [hnone]
    exact if_neg hname

theorem GroupOf.insert {members : List (String × Json)}
    (h : GroupOf readings r.timestamp members) (hname : r.reference ≠ timestampName) :
    GroupOf (readings ++ [r]) r.timestamp
      (Ascending.insert r.reference (readingValue r) members) where
  sorted := h.sorted.insert _ _
  time := by
    rw [Ascending.find?_insert, if_neg (Ne.symm hname)]
    exact h.time
  values name hne := by
    rw [Ascending.find?_insert, lastOf_concat]
    by_cases heq : name = r.reference
    · rw [if_pos heq, if_pos ⟨rfl, heq.symm⟩, Option.map_some]
    · rw [if_neg heq, if_neg fun hsame => heq hsame.2.symm]
      exact h.values name hne

theorem GroupOf.pass {timestamp : UInt64} {members : List (String × Json)}
    (h : GroupOf readings timestamp members) (htime : r.timestamp ≠ timestamp) :
    GroupOf (readings ++ [r]) timestamp members where
  sorted := h.sorted
  time := h.time
  values name hne := by
    rw [lastOf_concat, if_neg fun hsame => htime hsame.1]
    exact h.values name hne

theorem grouped_nil : Grouped [] [] where
  sorted := Ascending.sorted_nil
  groupOf g hg := by cases hg
  times r hr := by cases hr
  names r hr := by cases hr

/-- A reading changes the group of its time and no other. -/
theorem Grouped.addReading {groups' : Groups} (h : Grouped readings groups)
    (hadd : addReading groups r = .ok groups') : Grouped (readings ++ [r]) groups' := by
  obtain ⟨hname, rfl⟩ := addReading_ok hadd
  constructor
  · exact h.sorted.insert _ _
  · intro g hg
    -- The old group of that time is replaced, so only the others may be looked up among the old.
    have hperm := h.sorted.insert_perm_erase r.timestamp
      (Ascending.insert r.reference (readingValue r) (Data.groupAt groups r.timestamp))
    rcases List.mem_cons.mp (hperm.mem_iff.mp hg) with rfl | hg
    · exact (h.groupAt r.timestamp).insert hname
    · obtain ⟨hmem, hne⟩ := List.mem_filter.mp hg
      exact (h.groupOf g hmem).pass fun heq => of_decide_eq_true hne heq.symm
  · intro r' hr'
    rw [Ascending.find?_insert]
    rcases List.mem_append.mp hr' with hr' | hr'
    · split_ifs
      · rfl
      · exact h.times r' hr'
    · rw [List.mem_singleton.mp hr', if_pos rfl]
      rfl
  · intro r' hr'
    rcases List.mem_append.mp hr' with hr' | hr'
    · exact h.names r' hr'
    · rw [List.mem_singleton.mp hr']
      exact hname

theorem Grouped.lastOf_timestampName (h : Grouped readings groups) (timestamp : UInt64) :
    lastOf readings timestamp timestampName = none := by
  by_contra hsome
  obtain ⟨r, hr⟩ := Option.ne_none_iff_exists'.mp hsome
  obtain ⟨hmem, -, hname⟩ := of_lastOf hr
  exact h.names r hmem hname

theorem grouped_of_foldlM (h : readings.foldlM Data.addReading [] = .ok groups) :
    Grouped readings groups := by
  have hall := invariant_of_foldlM (I := Grouped) Grouped.addReading grouped_nil h
  rwa [List.nil_append] at hall

end Step

/-- Every member of a group is its time or the value of a last reading. -/
theorem GroupOf.member {readings : List Reading} {timestamp : UInt64}
    {members : List (String × Json)} (h : GroupOf readings timestamp members)
    {m : String × Json} (hm : m ∈ members) :
    m.1 = timestampName ∧ m.2 = .ofNat timestamp.toNat ∨
      m.1 ≠ timestampName ∧ ∃ r, lastOf readings timestamp m.1 = some r ∧ m.2 = readingValue r := by
  have hfind : Ascending.find? m.1 members = some m.2 :=
    (Ascending.find?_eq_some_iff h.sorted.nodup).mpr hm
  by_cases hname : m.1 = timestampName
  · rw [hname, h.time] at hfind
    exact Or.inl ⟨hname, (Option.some.inj hfind).symm⟩
  · rw [h.values m.1 hname] at hfind
    obtain ⟨r, hr, hvalue⟩ := Option.map_eq_some_iff.mp hfind
    exact Or.inr ⟨hname, r, hr, hvalue.symm⟩

section Values

variable {r : Reading}

theorem memberText_toJson {v : String} (h : Value.kind v = .uint ∨ Value.kind v = .int)
    (reference : String) : memberText reference (Value.toJson v) = .ok (Value.canonical v) := by
  obtain ⟨n, -, -, -, hjson, hcanonical⟩ := Value.toJson_whole h
  rw [hjson, hcanonical]
  rfl

private theorem readingOf_scalar {v : Json} {text : String} (h : Value.ofJson? v = some text)
    (timestamp : UInt64) (reference : String) :
    readingOf timestamp reference v = .ok (.single reference text timestamp) := by
  unfold readingOf
  cases v with
  | array items => cases h
  | _ => simp only [h]

/-- A reading comes back from its value, in canonical spelling. -/
theorem readingOf_readingValue (hdouble : ∀ v ∈ r.values, Value.kind v ≠ .double)
    (hmulti : r.isMulti → ∀ v ∈ r.values, Value.kind v = .uint ∨ Value.kind v = .int) :
    readingOf r.timestamp r.reference (readingValue r) = .ok r.canonical := by
  unfold readingValue
  by_cases hm : r.isMulti = true
  · have htexts : (r.values.map Value.toJson).mapM (memberText r.reference) =
        .ok (r.values.map Value.canonical) := by
      rw [List.mapM_map]
      exact mapM_of_forall_ok fun v hv => memberText_toJson (hmulti hm v hv) r.reference
    rw [if_pos hm]
    unfold readingOf
    simp only [htexts, bind, Except.bind]
    rfl
  · have hmore : r.more = [] := by
      by_contra hne
      exact hm (decide_eq_true hne)
    have hvalue := Value.ofJson?_toJson (hdouble r.value List.mem_cons_self)
    rw [if_neg hm, readingOf_scalar hvalue, Reading.canonical, hmore]
    rfl

theorem whole_readingValue (hdouble : ∀ v ∈ r.values, Value.kind v ≠ .double) (room : Nat) :
    Json.Whole (room + 1) (readingValue r) := by
  unfold readingValue
  split_ifs
  · refine .array fun v hv => ?_
    obtain ⟨text, htext, rfl⟩ := List.mem_map.mp hv
    exact Value.whole_toJson (hdouble text htext) room
  · exact Value.whole_toJson (hdouble r.value List.mem_cons_self) _

theorem ordered_readingValue (hdouble : ∀ v ∈ r.values, Value.kind v ≠ .double) :
    Json.Ordered (readingValue r) := by
  unfold readingValue
  split_ifs
  · refine .array fun v hv => ?_
    obtain ⟨text, htext, rfl⟩ := List.mem_map.mp hv
    exact Value.ordered_toJson (hdouble text htext)
  · exact Value.ordered_toJson (hdouble r.value List.mem_cons_self)

end Values

theorem legible_readingValue (r : Reading) (room : Nat) :
    Json.Legible (room + 1) (readingValue r) := by
  unfold readingValue
  split_ifs
  · refine .array fun v hv => ?_
    obtain ⟨text, -, rfl⟩ := List.mem_map.mp hv
    exact Value.legible_toJson text room
  · exact Value.legible_toJson r.value (room + 1)

def groupsJson (groups : Groups) : Json := .array (groups.map fun g => .object g.2)

/-- The readings of groups: the last reading for each member, the time being none. -/
def restored (readings : List Reading) (groups : Groups) : List Reading :=
  groups.flatMap fun g => g.2.filterMap fun m => (lastOf readings g.1 m.1).map Reading.canonical

section Payload

variable {readings : List Reading} {groups : Groups}

theorem natural?_eq_some {v : Json} {n : Nat} :
    v.natural? = some n ↔ n < limit64 ∧ v = .ofNat n := by
  constructor
  · intro h
    unfold Json.natural? at h
    split at h
    · split_ifs at h with hrange
      cases h
      refine ⟨by omega, ?_⟩
      rw [Json.ofNat, Int.toNat_of_nonneg hrange.1]
    · cases h
  · intro h
    obtain ⟨hn, rfl⟩ := h
    have hrange : (0 : Int) ≤ n ∧ (n : Int) < limit64 := by omega
    simp only [Json.natural?, Json.ofNat, if_pos hrange, Int.toNat_natCast]

theorem member_reads (h : Grouped readings groups)
    (hdouble : ∀ r ∈ readings, ∀ v ∈ r.values, Value.kind v ≠ .double)
    {g : UInt64 × List (String × Json)} (hg : g ∈ groups) {m : String × Json} (hm : m ∈ g.2)
    (room : Nat) : Json.Whole (room + 1) m.2 ∧ Json.Ordered m.2 := by
  rcases (h.groupOf g hg).member hm with ⟨-, hvalue⟩ | ⟨-, r, hr, hvalue⟩
  · rw [hvalue]
    exact ⟨Json.whole_ofNat g.1 _, .number _⟩
  · have hr := hdouble r (of_lastOf hr).1
    rw [hvalue]
    exact ⟨whole_readingValue hr room, ordered_readingValue hr⟩

theorem whole_groupsJson (h : Grouped readings groups)
    (hdouble : ∀ r ∈ readings, ∀ v ∈ r.values, Value.kind v ≠ .double) (room : Nat) :
    Json.Whole (room + 3) (groupsJson groups) := by
  refine .array fun v hv => ?_
  obtain ⟨g, hg, rfl⟩ := List.mem_map.mp hv
  exact .object fun m hm => (member_reads h hdouble hg hm room).1

theorem ordered_groupsJson (h : Grouped readings groups)
    (hdouble : ∀ r ∈ readings, ∀ v ∈ r.values, Value.kind v ≠ .double) :
    Json.Ordered (groupsJson groups) := by
  refine .array fun v hv => ?_
  obtain ⟨g, hg, rfl⟩ := List.mem_map.mp hv
  exact .object (h.groupOf g hg).sorted fun m hm => (member_reads h hdouble hg hm 0).2

theorem legible_groupsJson (h : Grouped readings groups) (room : Nat) :
    Json.Legible (room + 3) (groupsJson groups) := by
  refine .array fun v hv => ?_
  obtain ⟨g, hg, rfl⟩ := List.mem_map.mp hv
  refine .object fun m hm => ?_
  rcases (h.groupOf g hg).member hm with ⟨-, hvalue⟩ | ⟨-, r, -, hvalue⟩
  · rw [hvalue]
    exact (Json.whole_ofNat g.1 _).legible
  · rw [hvalue]
    exact legible_readingValue r room

theorem json_groupsJson (h : Grouped readings groups) (channel : String) :
    Payload.json ⟨channel, (groupsJson groups).encode⟩ = .ok (groupsJson groups).reread :=
  Payload.json_encode_reread (legible_groupsJson h 124)

/-- The schema demands of objects that they tell their time, and nothing else. -/
theorem fault?_feedValues {items : List Json} (h : ∀ g ∈ items, ∃ members n,
    g = .object members ∧ Ascending.find? timestampName members = some (.ofNat n)) :
    Schema.feedValues.fault? (.array items) = none := by
  refine Schema.fault?_list_eq_none.mpr ⟨items, rfl, fun g hg => ?_⟩
  obtain ⟨members, n, rfl, hn⟩ := h g hg
  have htime : Ascending.find? "timestamp" members = some (.ofNat n) := hn
  refine Schema.fault?_record_eq_none.mpr ⟨members, rfl, ?_, ?_⟩
  · simp [htime, Schema.fault?_number_eq_none, Json.ofNat]
  · simp [htime]

theorem fault?_groupsJson (h : Grouped readings groups) :
    Schema.feedValues.fault? (groupsJson groups) = none := by
  apply fault?_feedValues
  rw [List.forall_mem_map]
  exact fun g hg => ⟨_, _, rfl, (h.groupOf g hg).time⟩

private theorem readingsOfGroup_object (h : Grouped readings groups)
    (hdouble : ∀ r ∈ readings, ∀ v ∈ r.values, Value.kind v ≠ .double)
    (hmulti : ∀ r ∈ readings, r.isMulti →
      ∀ v ∈ r.values, Value.kind v = .uint ∨ Value.kind v = .int)
    {g : UInt64 × List (String × Json)} (hg : g ∈ groups) :
    readingsOfGroup (.object g.2) =
      .ok (g.2.filterMap fun m => (lastOf readings g.1 m.1).map Reading.canonical) := by
  have htime : (Ascending.find? timestampName g.2).bind Json.natural? = some g.1.toNat := by
    rw [(h.groupOf g hg).time, Option.bind_some]
    exact natural?_eq_some.mpr ⟨g.1.toNat_lt, rfl⟩
  have hmembers : (g.2.filter fun m => m.1 ≠ timestampName).mapM
      (fun m => readingOf (.ofNat g.1.toNat) m.1 m.2) =
        .ok (g.2.filterMap fun m => (lastOf readings g.1 m.1).map Reading.canonical) := by
    refine mapM_filter_of_forall_ok fun m hm => ?_
    rw [UInt64.ofNat_toNat]
    rcases (h.groupOf g hg).member hm with ⟨hname, -⟩ | ⟨hname, r, hr, hvalue⟩
    · left
      rw [hname, h.lastOf_timestampName]
      exact ⟨decide_eq_false fun hne => hne rfl, rfl⟩
    · right
      obtain ⟨hmem, htime, hreference⟩ := of_lastOf hr
      have hread := readingOf_readingValue (hdouble r hmem) (hmulti r hmem)
      rw [htime, hreference] at hread
      rw [hr, hvalue]
      exact ⟨decide_eq_true hname, r.canonical, hread, rfl⟩
  unfold readingsOfGroup
  simp only [htime, hmembers]

theorem readings_groupsJson (h : Grouped readings groups)
    (hdouble : ∀ r ∈ readings, ∀ v ∈ r.values, Value.kind v ≠ .double)
    (hmulti : ∀ r ∈ readings, r.isMulti →
      ∀ v ∈ r.values, Value.kind v = .uint ∨ Value.kind v = .int) :
    Data.readings (groupsJson groups) = .ok (restored readings groups) := by
  have hgroups : (groups.map fun g => Json.object g.2).mapM readingsOfGroup =
      .ok (groups.map fun g =>
        g.2.filterMap fun m => (lastOf readings g.1 m.1).map Reading.canonical) := by
    rw [List.mapM_map]
    exact mapM_of_forall_ok fun g hg => readingsOfGroup_object h hdouble hmulti hg
  unfold groupsJson Data.readings restored
  simp only [hgroups, bind, Except.bind, List.flatMap_def]

end Payload

section Restored

variable {readings : List Reading} {groups : Groups} {r' : Reading}

theorem of_map_canonical {timestamp : UInt64} {reference : String}
    (h : (lastOf readings timestamp reference).map Reading.canonical = some r') :
    r'.timestamp = timestamp ∧ r'.reference = reference ∧
      ∃ r, lastOf readings timestamp reference = some r ∧
        r'.values = r.values.map Value.canonical := by
  obtain ⟨r, hr, rfl⟩ := Option.map_eq_some_iff.mp h
  obtain ⟨-, htime, hreference⟩ := of_lastOf hr
  exact ⟨htime, hreference, r, hr, rfl⟩

theorem before_restored (h : Grouped readings groups) :
    (restored readings groups).Pairwise Reading.Before := by
  refine List.pairwise_flatMap.mpr ⟨fun g hg => List.pairwise_filterMap.mpr ?_, ?_⟩
  · refine (h.groupOf g hg).sorted.imp fun hlt a ha b hb => ?_
    obtain ⟨hatime, hareference, -⟩ := of_map_canonical ha
    obtain ⟨hbtime, hbreference, -⟩ := of_map_canonical hb
    right
    rw [hatime, hbtime, hareference, hbreference]
    exact ⟨rfl, Text.encode_lt hlt⟩
  · refine h.sorted.imp fun hlt a ha b hb => ?_
    obtain ⟨m, -, hm⟩ := List.mem_filterMap.mp ha
    obtain ⟨m', -, hm'⟩ := List.mem_filterMap.mp hb
    left
    rw [(of_map_canonical hm).1, (of_map_canonical hm').1]
    exact hlt

theorem of_mem_restored (h : r' ∈ restored readings groups) :
    ∃ r, lastOf readings r'.timestamp r'.reference = some r ∧
      r'.values = r.values.map Value.canonical := by
  obtain ⟨g, -, hg⟩ := List.mem_flatMap.mp h
  obtain ⟨m, -, hm⟩ := List.mem_filterMap.mp hg
  obtain ⟨htime, hreference, hlast⟩ := of_map_canonical hm
  rwa [htime, hreference]

/-- No reading is lost: each has a successor under its name in the group of its time. -/
theorem exists_mem_restored (h : Grouped readings groups) {r : Reading} (hr : r ∈ readings) :
    ∃ r' ∈ restored readings groups,
      r'.timestamp = r.timestamp ∧ r'.reference = r.reference := by
  obtain ⟨last, hlast⟩ := exists_lastOf hr
  obtain ⟨-, htime, hreference⟩ := of_lastOf hlast
  obtain ⟨members, hmembers⟩ := Option.isSome_iff_exists.mp (h.times r hr)
  have hg : (r.timestamp, members) ∈ groups := Ascending.mem_of_find? hmembers
  have hvalue : Ascending.find? r.reference members = some (readingValue last) := by
    rw [(h.groupOf _ hg).values _ (h.names r hr), hlast, Option.map_some]
  refine ⟨last.canonical, ?_, htime, hreference⟩
  refine List.mem_flatMap.mpr ⟨_, hg, List.mem_filterMap.mpr ⟨_, Ascending.mem_of_find? hvalue, ?_⟩⟩
  rw [hlast, Option.map_some]

end Restored

section Envelopes

variable {key : String} {readings : List Reading} {e : Envelope}

theorem payload_feedValues {text : String} (h : payload (.feedValues readings) = .ok text) :
    ∃ groups, readings.foldlM addReading [] = .ok groups ∧ text = (groupsJson groups).text := by
  obtain ⟨v, hv, hpayload⟩ := bind_eq_ok.mp h
  unfold feedValuesJson at hv
  split_ifs at hv
  obtain ⟨groups, hgroups, hv⟩ := bind_eq_ok.mp hv
  cases hv
  cases hpayload
  exact ⟨groups, hgroups, rfl⟩

theorem make_feedValues (h : (Area.data.make key (.feedValues readings)).value = some e) :
    ∃ groups, readings.foldlM addReading [] = .ok groups ∧
      e = ⟨Topic.channel .deviceToPlatform key .feedValues, (groupsJson groups).encode⟩ := by
  obtain ⟨-, text, htext, rfl⟩ := Area.of_make (by decide) h
  obtain ⟨groups, hgroups, rfl⟩ := payload_feedValues htext
  exact ⟨groups, hgroups, rfl⟩

private theorem validated_groupsJson {groups : Groups} (h : Grouped readings groups)
    (hdouble : ∀ r ∈ readings, ∀ v ∈ r.values, Value.kind v ≠ .double) :
    Payload.validated ⟨Topic.channel .deviceToPlatform key .feedValues,
      (groupsJson groups).encode⟩ = .ok (groupsJson groups) := by
  have hschema : Schema.ofType? (Topic.messageType
      (Topic.channel .deviceToPlatform key .feedValues)) = some Schema.feedValues := by
    rw [Topic.messageType_channel]
    rfl
  have harranged := (ordered_groupsJson h hdouble).arranged_eq
  have hfault : Schema.feedValues.fault? (groupsJson groups).arranged = none := by
    rw [harranged]
    exact fault?_groupsJson h
  have hvalid := Payload.validated_encode hschema (whole_groupsJson h hdouble 124) hfault
  rwa [harranged] at hvalid

private theorem parseAs_groupsJson {groups : Groups} (h : Grouped readings groups)
    (hdouble : ∀ r ∈ readings, ∀ v ∈ r.values, Value.kind v ≠ .double)
    (hmulti : ∀ r ∈ readings, r.isMulti →
      ∀ v ∈ r.values, Value.kind v = .uint ∨ Value.kind v = .int) :
    (Area.data.parseAs .feedValues ⟨Topic.channel .deviceToPlatform key .feedValues,
      (groupsJson groups).encode⟩).value = some (.feedValues (restored readings groups)) := by
  have hread : readFeedValues ⟨Topic.channel .deviceToPlatform key .feedValues,
      (groupsJson groups).encode⟩ = .ok (.feedValues (restored readings groups)) := by
    unfold readFeedValues
    rw [validated_groupsJson h hdouble]
    simp only [readings_groupsJson h hdouble hmulti, bind, Except.bind]
  have htype : Area.data.messageType (Topic.channel .deviceToPlatform key .feedValues) =
      .feedValues := by
    show Topic.messageType _ = _
    rw [Topic.messageType_channel]
    decide
  have hreader : Area.data.reader? .feedValues = some readFeedValues := rfl
  exact (Area.parseAs_eq_some hreader).mpr ⟨htype, hread⟩

end Envelopes

/-- Feed values that are sent come back as one reading for each feed and time, in order, each
with the canonical values of the last reading of that feed and time. -/
theorem last_readings_return {key : String} {readings : List Reading} {e : Envelope}
    (h : (Area.data.make key (.feedValues readings)).value = some e)
    (hdouble : ∀ r ∈ readings, ∀ v ∈ r.values, Value.kind v ≠ .double)
    (hmulti : ∀ r ∈ readings, r.isMulti →
      ∀ v ∈ r.values, Value.kind v = .uint ∨ Value.kind v = .int) :
    ∃ out, (Area.data.parseAs .feedValues e).value = some (.feedValues out) ∧
      out.Pairwise Reading.Before ∧
      (∀ r ∈ readings, ∃ r' ∈ out,
        r'.timestamp = r.timestamp ∧ r'.reference = r.reference) ∧
      ∀ r' ∈ out, ∃ r, lastOf readings r'.timestamp r'.reference = some r ∧
        r'.values = r.values.map Value.canonical := by
  obtain ⟨groups, hfold, rfl⟩ := make_feedValues h
  have hgrouped := grouped_of_foldlM hfold
  refine ⟨restored readings groups, parseAs_groupsJson hgrouped hdouble hmulti, ?_, ?_, ?_⟩
  · exact before_restored hgrouped
  · exact fun r hr => exists_mem_restored hgrouped hr
  · exact fun r' hr' => of_mem_restored hr'

def repeatedReadings : List Reading :=
  [.single "T" "007" 5, .single "A" "true" 5, ⟨"T", "-0", ["12"], 5⟩]

theorem last_readings_return_repeated :
    ∃ e, (Area.data.make "K" (.feedValues repeatedReadings)).value = some e ∧
      (∀ r ∈ repeatedReadings, ∀ v ∈ r.values, Value.kind v ≠ .double) ∧
      (∀ r ∈ repeatedReadings, r.isMulti →
        ∀ v ∈ r.values, Value.kind v = .uint ∨ Value.kind v = .int) ∧
      ∃ out, (Area.data.parseAs .feedValues e).value = some (.feedValues out) ∧
        out.Pairwise Reading.Before ∧
        (∀ r ∈ repeatedReadings, ∃ r' ∈ out,
          r'.timestamp = r.timestamp ∧ r'.reference = r.reference) ∧
        ∀ r' ∈ out, ∃ r, lastOf repeatedReadings r'.timestamp r'.reference = some r ∧
          r'.values = r.values.map Value.canonical := by
  have hmake : (Area.data.make "K" (.feedValues repeatedReadings)).value.isSome = true := rfl
  have hdouble : ∀ r ∈ repeatedReadings, ∀ v ∈ r.values, Value.kind v ≠ .double := by
    decide
  have hmulti : ∀ r ∈ repeatedReadings, r.isMulti →
      ∀ v ∈ r.values, Value.kind v = .uint ∨ Value.kind v = .int := by
    decide
  obtain ⟨e, he⟩ := Option.isSome_iff_exists.mp hmake
  exact ⟨e, he, hdouble, hmulti, last_readings_return he hdouble hmulti⟩

end Data
end DeviceLink
