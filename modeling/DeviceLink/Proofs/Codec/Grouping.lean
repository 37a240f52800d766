import DeviceLink.Proofs.Codec.FeedValues
import DeviceLink.Proofs.Codec.Sending
import Mathlib.Data.List.Pairwise

/-! The payload of feed values: a group for each time and in it a member for each reading, in
whatever order the readings are given. -/
namespace DeviceLink

/-- Two readings differ in their feeds or in their times. -/
def Reading.Apart (a b : Reading) : Prop := a.timestamp = b.timestamp → a.reference ≠ b.reference

instance (a b : Reading) : Decidable (a.Apart b) := inferInstanceAs (Decidable (_ → _))

instance : Std.Symm Reading.Apart := ⟨fun _ _ h htime => (h htime.symm).symm⟩

namespace Data

def Distinct (readings : List Reading) : Prop := readings.Pairwise Reading.Apart

instance (readings : List Reading) : Decidable (Distinct readings) :=
  inferInstanceAs (Decidable (List.Pairwise _ readings))

/-- The members that stand for a time: the time itself and each of its readings. -/
def membersAt (readings : List Reading) (timestamp : UInt64) : List (String × Json) :=
  (timestampName, .ofNat timestamp.toNat) ::
    (readings.filter fun r => r.timestamp = timestamp).map fun r => (r.reference, readingValue r)

/-- Readings in groups: the groups ascend by their times, which are those of the readings, and each
has the members that stand for its time, in ascending order of their names. -/
structure IsGrouping (readings : List Reading) (groups : Groups) : Prop where
  sorted : Ascending.Sorted groups
  times : ∀ t, t ∈ groups.map Prod.fst ↔ t ∈ readings.map Reading.timestamp
  named : ∀ g ∈ groups, Ascending.Sorted g.2
  members : ∀ g ∈ groups, g.2.Perm (membersAt readings g.1)

section Distinct

variable {readings readings' : List Reading} {timestamp : UInt64} {reference : String}
  {a b r : Reading}

theorem Distinct.perm (h : Distinct readings) (hperm : readings.Perm readings') :
    Distinct readings' :=
  (hperm.pairwise_iff fun hab => Std.Symm.symm _ _ hab).mp h

theorem Distinct.eq (h : Distinct readings) (ha : a ∈ readings) (hb : b ∈ readings)
    (htime : a.timestamp = b.timestamp) (hreference : a.reference = b.reference) : a = b := by
  by_contra hne
  exact List.Pairwise.forall h ha hb hne htime hreference

/-- Where no reading is replaced, the last one of a feed and time is the only one. -/
theorem Distinct.lastOf_eq_some (h : Distinct readings) :
    lastOf readings timestamp reference = some r ↔
      r ∈ readings ∧ r.timestamp = timestamp ∧ r.reference = reference := by
  constructor
  · exact of_lastOf
  · intro hr
    obtain ⟨hmem, rfl, rfl⟩ := hr
    obtain ⟨last, hlast⟩ := exists_lastOf hmem
    obtain ⟨hlastMem, htime, hreference⟩ := of_lastOf hlast
    rw [hlast, h.eq hlastMem hmem htime hreference]

end Distinct

section Members

variable {readings readings' : List Reading} {timestamp : UInt64}

theorem membersAt_perm (h : readings.Perm readings') :
    (membersAt readings timestamp).Perm (membersAt readings' timestamp) :=
  ((h.filter _).map _).cons _

theorem mem_membersAt {m : String × Json} : m ∈ membersAt readings timestamp ↔
    m = (timestampName, .ofNat timestamp.toNat) ∨
      ∃ r ∈ readings, r.timestamp = timestamp ∧ (r.reference, readingValue r) = m := by
  unfold membersAt
  rw [List.mem_cons, List.mem_map]
  simp only [List.mem_filter, decide_eq_true_eq, and_assoc]

private theorem nodup_membersAt (h : Distinct readings)
    (hnames : ∀ r ∈ readings, r.reference ≠ timestampName) :
    (membersAt readings timestamp).Nodup := by
  refine List.nodup_cons.mpr ⟨fun hmem => ?_, ?_⟩
  · obtain ⟨r, hr, hname⟩ := List.mem_map.mp hmem
    exact hnames r (List.mem_filter.mp hr).1 (Prod.ext_iff.mp hname).1
  · refine List.pairwise_map.mpr (List.Pairwise.imp_of_mem ?_ (h.filter _))
    intro a b ha hb hab heq
    have ha := of_decide_eq_true (List.mem_filter.mp ha).2
    have hb := of_decide_eq_true (List.mem_filter.mp hb).2
    exact hab (ha.trans hb.symm) (Prod.ext_iff.mp heq).1

end Members

section Groupings

variable {readings readings' : List Reading} {groups groups' : Groups}

theorem GroupOf.perm_membersAt {timestamp : UInt64} {members : List (String × Json)}
    (h : GroupOf readings timestamp members) (hdistinct : Distinct readings)
    (hnames : ∀ r ∈ readings, r.reference ≠ timestampName) :
    members.Perm (membersAt readings timestamp) := by
  have hnodup : members.Nodup := h.sorted.nodup.of_map _
  rw [List.perm_ext_iff_of_nodup hnodup (nodup_membersAt hdistinct hnames)]
  intro m
  rw [mem_membersAt]
  constructor
  · intro hm
    rcases h.member hm with ⟨hname, hvalue⟩ | ⟨-, r, hr, hvalue⟩
    · exact Or.inl (Prod.ext hname hvalue)
    · obtain ⟨hmem, htime, hreference⟩ := of_lastOf hr
      exact Or.inr ⟨r, hmem, htime, Prod.ext hreference hvalue.symm⟩
  · intro hm
    rcases hm with rfl | ⟨r, hr, htime, rfl⟩
    · exact Ascending.mem_of_find? h.time
    · have hlast : lastOf readings timestamp r.reference = some r :=
        hdistinct.lastOf_eq_some.mpr ⟨hr, htime, rfl⟩
      apply Ascending.mem_of_find?
      rw [h.values _ (hnames r hr), hlast, Option.map_some]

def Traced (readings : List Reading) (groups : Groups) : Prop :=
  ∀ g ∈ groups, ∃ r ∈ readings, r.timestamp = g.1

theorem traced_nil : Traced [] [] := List.forall_mem_nil _

theorem Traced.addReading {r : Reading} (h : Traced readings groups)
    (hadd : addReading groups r = .ok groups') : Traced (readings ++ [r]) groups' := by
  obtain ⟨-, rfl⟩ := addReading_ok hadd
  intro g hg
  rcases Ascending.mem_insert hg with rfl | hg
  · exact ⟨r, List.mem_append_right _ (List.mem_singleton_self r), rfl⟩
  · obtain ⟨r', hr', htime⟩ := h g hg
    exact ⟨r', List.mem_append_left _ hr', htime⟩

private theorem traced_of_foldlM (h : readings.foldlM addReading [] = .ok groups) :
    Traced readings groups := by
  have hall := invariant_of_foldlM (I := Traced) Traced.addReading traced_nil h
  rwa [List.nil_append] at hall

theorem isGrouping_of_foldlM (hdistinct : Distinct readings)
    (h : readings.foldlM addReading [] = .ok groups) : IsGrouping readings groups := by
  have hgrouped := grouped_of_foldlM h
  constructor
  · exact hgrouped.sorted
  · intro t
    constructor
    · intro ht
      obtain ⟨g, hg, rfl⟩ := List.mem_map.mp ht
      obtain ⟨r, hr, htime⟩ := traced_of_foldlM h g hg
      exact List.mem_map.mpr ⟨r, hr, htime⟩
    · intro ht
      obtain ⟨r, hr, rfl⟩ := List.mem_map.mp ht
      obtain ⟨members, hmembers⟩ := Option.isSome_iff_exists.mp (hgrouped.times r hr)
      exact List.mem_map.mpr ⟨_, Ascending.mem_of_find? hmembers, rfl⟩
  · exact fun g hg => (hgrouped.groupOf g hg).sorted
  · exact fun g hg => (hgrouped.groupOf g hg).perm_membersAt hdistinct hgrouped.names

theorem IsGrouping.subset (h : IsGrouping readings groups) (h' : IsGrouping readings' groups')
    (hperm : readings.Perm readings') : groups ⊆ groups' := by
  intro g hg
  have htime : g.1 ∈ groups'.map Prod.fst := by
    rw [h'.times, ← (hperm.map Reading.timestamp).mem_iff, ← h.times]
    exact List.mem_map_of_mem hg
  obtain ⟨g', hg', heq⟩ := List.mem_map.mp htime
  have hmembers : g.2.Perm g'.2 := by
    have hg₂ := h'.members g' hg'
    rw [heq] at hg₂
    exact (h.members g hg).trans ((membersAt_perm hperm).trans hg₂.symm)
  have hsame : g = g' :=
    Prod.ext heq.symm (Ascending.Sorted.eq_of_perm (h.named g hg) (h'.named g' hg') hmembers)
  rwa [hsame]

/-- The groups do not depend on the order of the readings. -/
theorem IsGrouping.eq (h : IsGrouping readings groups) (h' : IsGrouping readings' groups')
    (hperm : readings.Perm readings') : groups = groups' := by
  refine h.sorted.eq_of_perm h'.sorted ?_
  have hnodup : groups.Nodup := h.sorted.nodup.of_map _
  have hnodup' : groups'.Nodup := h'.sorted.nodup.of_map _
  rw [List.perm_ext_iff_of_nodup hnodup hnodup']
  exact fun g => ⟨fun hg => h.subset h' hperm hg, fun hg => h'.subset h hperm.symm hg⟩

end Groupings

section Payload

variable {key : String} {readings readings' : List Reading} {e : Envelope}

theorem make_feedValues_perm (hperm : readings.Perm readings') (hdistinct : Distinct readings)
    (h : (Area.data.make key (.feedValues readings)).value = some e) :
    (Area.data.make key (.feedValues readings')).value = some e := by
  have hkeyed : Area.data.Keyed := by decide
  obtain ⟨hkey, text, htext, rfl⟩ := Area.of_make hkeyed h
  have hsendable : Sendable (.feedValues readings) := (succeeds_payload _).mp ⟨_, htext⟩
  have hsendable' : Sendable (.feedValues readings') := by
    obtain ⟨hne, hnames⟩ := hsendable
    exact ⟨fun hnil => hne (hnil ▸ hperm).eq_nil, fun r hr => hnames r (hperm.mem_iff.mpr hr)⟩
  obtain ⟨text', htext'⟩ := (succeeds_payload _).mpr hsendable'
  have hsame : text = text' := by
    obtain ⟨groups, hfold, rfl⟩ := payload_feedValues htext
    obtain ⟨groups', hfold', rfl⟩ := payload_feedValues htext'
    have hgrouping := isGrouping_of_foldlM hdistinct hfold
    have hgrouping' := isGrouping_of_foldlM (hdistinct.perm hperm) hfold'
    rw [hgrouping.eq hgrouping' hperm]
  rw [Area.make_eq_some]
  exact (Area.write_eq_ok hkeyed).mpr ⟨hkey, text', htext', hsame ▸ rfl⟩

/-- Readings of which no two are of the same feed and time are sent alike in any order, or in none;
the payload has one object for each of their times, in ascending order, and this holds the time and
one member for each reading. As JSON it reads as these objects, doubles as they are reread. -/
theorem any_order_sent_alike (hperm : readings.Perm readings') (hdistinct : Distinct readings) :
    (Area.data.make key (.feedValues readings)).value =
        (Area.data.make key (.feedValues readings')).value ∧
      ∀ e, (Area.data.make key (.feedValues readings)).value = some e →
        e.channel = Topic.channel .deviceToPlatform key .feedValues ∧
        ∃ groups, IsGrouping readings groups ∧ e.content = (groupsJson groups).encode ∧
          Payload.json e = .ok (groupsJson groups).reread := by
  constructor
  · apply Option.ext
    intro e
    exact ⟨make_feedValues_perm hperm hdistinct,
      make_feedValues_perm hperm.symm (hdistinct.perm hperm)⟩
  · intro e he
    obtain ⟨groups, hfold, rfl⟩ := make_feedValues he
    exact ⟨rfl, groups, isGrouping_of_foldlM hdistinct hfold, rfl,
      json_groupsJson (grouped_of_foldlM hfold) _⟩

def scatteredReadings : List Reading :=
  [.single "T" "0.5" 7, ⟨"A", "1", ["x"], 5⟩, .single "T" "007" 5]

theorem any_order_sent_alike_scattered :
    scatteredReadings.Perm scatteredReadings.reverse ∧ Distinct scatteredReadings ∧
      ∃ e, (Area.data.make "a/b" (.feedValues scatteredReadings)).value = some e ∧
        (Area.data.make "a/b" (.feedValues scatteredReadings.reverse)).value = some e ∧
        ∃ groups, IsGrouping scatteredReadings groups ∧
          e.content = (groupsJson groups).encode ∧
          Payload.json e = .ok (groupsJson groups).reread := by
  have hperm : scatteredReadings.Perm scatteredReadings.reverse := (List.reverse_perm _).symm
  have hdistinct : Distinct scatteredReadings := by decide
  have hmake : (Area.data.make "a/b" (.feedValues scatteredReadings)).value.isSome = true := rfl
  obtain ⟨e, he⟩ := Option.isSome_iff_exists.mp hmake
  obtain ⟨hsame, hpayload⟩ := any_order_sent_alike hperm hdistinct
  exact ⟨hperm, hdistinct, e, he, hsame ▸ he, (hpayload e he).2⟩

end Payload

end Data

end DeviceLink
