import DeviceLink.Proofs.Result
import DeviceLink.Proofs.Store.Eviction

/-! The stores that come from an empty directory: index, files and total always agree. -/
namespace DeviceLink.Store.Disk

/-- What the operations make of an empty directory, while file numbers stay below the last one. -/
inductive Reachable : Disk → Prop
  | openAt (order : Order) : Reachable (openAt Directory.empty order).value
  | openIn (env : Environment) (order : Order) : Reachable (openIn env Directory.empty order).value
  | reopenAt {s : Disk} (order : Order) : Reachable s → Reachable (openAt s.directory order).value
  | reopenIn {s : Disk} (env : Environment) (order : Order) :
    Reachable s → Reachable (openIn env s.directory order).value
  | withLimit {s : Disk} (limit : Nat) : Reachable s → Reachable (s.withLimit limit).value
  | push {s : Disk} (m : Envelope) :
    Reachable s → s.next + 1 < limit64 → Reachable (s.push m).value.1
  | pop {s : Disk} : Reachable s → Reachable s.pop.value

section Places

variable (env : Option Environment) (order : Order)

theorem succeeds_openPlace_iff (p : Place) : Succeeds (openPlace env p order) ↔ p ≠ .file := by
  cases p with
  | free => exact iff_of_true ⟨_, rfl⟩ Place.noConfusion
  | file => exact iff_of_false (not_succeeds_error _) fun h => h rfl
  | directory d => exact iff_of_true ⟨_, rfl⟩ Place.noConfusion

/-- What is opened where nothing was comes from an empty directory. -/
theorem reachable_openPlace_free {r : Logged Disk} (h : openPlace env .free order = .ok r) :
    Reachable r.value := by
  cases h
  cases env with
  | none => exact .openAt order
  | some env => exact .openIn env order

/-- A store that comes from an empty directory may be closed and opened again. -/
theorem Reachable.openPlace {s : Disk} (hs : Reachable s) {r : Logged Disk}
    (h : openPlace env (.directory s.directory) order = .ok r) : Reachable r.value := by
  cases h
  cases env with
  | none => exact .reopenAt order hs
  | some env => exact .reopenIn env order hs

end Places

namespace Holds

variable {s : Disk} {l : List Stored}

theorem withLimit (h : Holds s l) (limit : Nat) : ∃ kept, Holds (s.withLimit limit).value kept ∧
    kept <:+ l ∧ (s.withLimit limit).value.next = s.next :=
  (h.setLimit limit).evict_holds

theorem push_holds (h : Holds s l) (m : Envelope) : ∃ kept, Holds (s.push m).value.1 kept ∧
    kept <:+ l ++ [⟨s.next, m⟩] ∧ (s.push m).value.1.next = s.next + 1 := by
  have hwritten : ({ s with limit := 0 }.push m).value.1.next = s.next + 1 :=
    ((h.setLimit 0).push rfl m).2.2.2.2
  obtain ⟨kept, hkept, hsuffix, hnext⟩ := (h.written m).evict_holds
  rw [h.push_eq_evict m]
  exact ⟨kept, hkept, hsuffix, hnext.trans hwritten⟩

theorem reopen (h : Holds s l) (hfit : s.next < limit64) (order : Order) :
    Holds (Disk.openAt s.directory order).value l ∧
      (Disk.openAt s.directory order).value.next < limit64 := by
  have hnumbers : ∀ x ∈ l, x.number < limit64 := fun x hx => Nat.lt_trans (h.below x hx) hfit
  obtain ⟨hholds, -, -, hnext⟩ := h.openAt hnumbers order
  exact ⟨hholds, Nat.lt_of_le_of_lt hnext hfit⟩

end Holds

theorem next_openAt_empty (order : Order) : (openAt Directory.empty order).value.next = 0 := by
  have hnone : Entry.ofDirectory Directory.empty = [] := List.mergeSort_nil
  show ((Entry.ofDirectory Directory.empty).getLast?.map _).getD 0 = 0
  rw [hnone]
  rfl

/-- One list of messages accounts for the index, the files and the total. -/
theorem Reachable.holds {s : Disk} (h : Reachable s) :
    ∃ l, Holds s l ∧ s.next < limit64 := by
  have hlimit : ∀ {s : Disk} (limit : Nat), (∃ l, Holds s l ∧ s.next < limit64) →
      ∃ l, Holds (s.withLimit limit).value l ∧ (s.withLimit limit).value.next < limit64 := by
    rintro s limit ⟨l, hl, hfit⟩
    obtain ⟨kept, hkept, -, hnext⟩ := hl.withLimit limit
    exact ⟨kept, hkept, hnext ▸ hfit⟩
  have hempty : ∀ order, ∃ l, Holds (Disk.openAt Directory.empty order).value l ∧
      (Disk.openAt Directory.empty order).value.next < limit64 := by
    intro order
    refine ⟨[], holds_empty order, ?_⟩
    rw [next_openAt_empty]
    decide
  induction h with
  | openAt order => exact hempty order
  | openIn env order => exact hlimit _ (hempty order)
  | reopenAt order _ ih =>
    obtain ⟨l, hl, hfit⟩ := ih
    exact ⟨l, hl.reopen hfit order⟩
  | reopenIn env order _ ih =>
    obtain ⟨l, hl, hfit⟩ := ih
    exact hlimit _ ⟨l, hl.reopen hfit order⟩
  | withLimit limit _ ih => exact hlimit limit ih
  | push m _ hfit ih =>
    obtain ⟨l, hl, -⟩ := ih
    obtain ⟨kept, hkept, -, hnext⟩ := hl.push_holds m
    exact ⟨kept, hkept, hnext ▸ hfit⟩
  | pop _ ih =>
    obtain ⟨l, hl, hfit⟩ := ih
    obtain ⟨hpop, -, -, hnext⟩ := hl.pop
    exact ⟨_, hpop, hnext ▸ hfit⟩

theorem Reachable.next_withLimit {s : Disk} (h : Reachable s) (limit : Nat) :
    (s.withLimit limit).value.next = s.next := by
  obtain ⟨l, hl, -⟩ := h.holds
  obtain ⟨kept, -, -, hnext⟩ := hl.withLimit limit
  exact hnext

theorem Reachable.next_push {s : Disk} (h : Reachable s) (m : Envelope) :
    (s.push m).value.1.next = s.next + 1 := by
  obtain ⟨l, hl, -⟩ := h.holds
  obtain ⟨kept, -, -, hnext⟩ := hl.push_holds m
  exact hnext

/-- Index, files and total agree: numbers ascend below the next one, each entry has its file with
the recorded size, and there is no other file. -/
structure Indexed (s : Disk) : Prop where
  ascending : s.entries.Pairwise fun a b => a.number < b.number
  below : ∀ e ∈ s.entries, e.number < s.next
  files : ∀ name, name ∈ s.directory.names ↔ ∃ e ∈ s.entries, name = Entry.fileName e.number
  sizes : ∀ e ∈ s.entries, ∃ content,
    s.directory.read? (Entry.fileName e.number) = some content ∧ content.length = e.size
  total : s.total = (s.entries.map Entry.size).sum

namespace Holds

variable {s : Disk} {l : List Stored}

theorem indexed (h : Holds s l) : Indexed s where
  ascending := by
    rw [h.entries]
    exact List.pairwise_map.mpr h.ascending
  below := by
    rw [h.entries]
    intro e he
    obtain ⟨x, hx, rfl⟩ := List.mem_map.mp he
    exact h.below x hx
  files := by
    intro name
    unfold Directory.names
    rw [(h.nodes.map Prod.fst).mem_iff, h.entries]
    simp only [List.mem_map, exists_exists_and_eq_and]
    constructor
    · rintro ⟨x, hx, rfl⟩
      exact ⟨x, hx, rfl⟩
    · rintro ⟨x, hx, rfl⟩
      exact ⟨x, hx, rfl⟩
  sizes := by
    rw [h.entries]
    intro e he
    obtain ⟨x, hx, rfl⟩ := List.mem_map.mp he
    exact ⟨x.content, h.read?_file hx, (Stored.entry_size x).symm⟩
  total := by rw [h.total, Entry.total_eq_sum]

/-- A file that can be read holds one of the messages. -/
theorem exists_of_read? (h : Holds s l) {name : String} {content : Octets}
    (hread : s.directory.read? name = some content) :
    ∃ x ∈ l, name = x.name ∧ content = x.content := by
  have hfile := (Directory.read?_eq_some_iff h.nodup_names).mp hread
  obtain ⟨x, hx, heq⟩ := List.mem_map.mp (h.nodes.mem_iff.mp hfile)
  obtain ⟨hname, hnode⟩ := Prod.mk.inj heq
  exact ⟨x, hx, hname.symm, (Node.file.inj hnode).symm⟩

/-- A file that is there before a message is stored is the same afterwards, unless it is evicted. -/
theorem read?_push (h : Holds s l) {m : Envelope} {name : String} {content content' : Octets}
    (hbefore : s.directory.read? name = some content)
    (hafter : (s.push m).value.1.directory.read? name = some content') : content' = content := by
  obtain ⟨kept, hkept, hsuffix, -⟩ := h.push_holds m
  obtain ⟨x, hx, hname, hcontent⟩ := h.exists_of_read? hbefore
  obtain ⟨y, hy, hname', hcontent'⟩ := hkept.exists_of_read? hafter
  have hnumber : y.number = x.number := Entry.fileName_injective (hname'.symm.trans hname)
  rcases List.mem_append.mp (hsuffix.subset hy) with hy | hy
  · have hread := h.read?_file hy
    rw [hnumber, h.read?_file hx] at hread
    rw [hcontent, hcontent']
    exact (Option.some.inj hread).symm
  · have hlt := h.below x hx
    have hnext : y.number = s.next := by rw [List.mem_singleton.mp hy]
    omega

private theorem total_eq_zero_iff (h : Holds s l) : s.total = 0 ↔ s.isEmpty = true := by
  have hempty : s.isEmpty = true ↔ l = [] := by
    unfold Disk.isEmpty
    rw [h.entries, List.isEmpty_map, List.isEmpty_iff]
  rw [hempty, h.total_eq]
  constructor
  · intro hzero
    cases l with
    | nil => rfl
    | cons x l =>
      have hpos := x.message.storedSize_pos
      rw [List.map_cons, List.sum_cons] at hzero
      omega
  · rintro rfl
    rfl

end Holds

/-- Index, files and total agree in every store that comes from an empty directory. So a message
never takes the place of another, no subtraction from the total goes below zero, and the total is
zero exactly where nothing is stored. -/
theorem Reachable.index_exact {s : Disk} (h : Reachable s) :
    Indexed s ∧ Entry.fileName s.next ∉ s.directory.names ∧
      (∀ m name content content', s.directory.read? name = some content →
        (s.push m).value.1.directory.read? name = some content' → content' = content) ∧
      (∀ e, s.order.next? s.entries = some e → e.size ≤ s.total) ∧
      (∀ limit, Subtracts limit s.total s.entries) ∧
      (∀ m : Envelope, Subtracts s.limit (s.total + m.storedSize)
        (s.entries ++ [⟨s.next, m.storedSize⟩])) ∧
      (s.total = 0 ↔ s.isEmpty = true) := by
  obtain ⟨l, hl, -⟩ := h.holds
  refine ⟨hl.indexed, hl.next_not_mem, fun m name content content' => hl.read?_push, ?_, ?_, ?_,
    hl.total_eq_zero_iff⟩
  · intro e he
    have hperm := Order.perm_next he
    rw [hl.total, Entry.total_perm hperm, Entry.total_cons]
    exact Nat.le_add_right _ _
  · intro limit
    rw [hl.total]
    exact subtracts_total limit s.entries
  · intro m
    have htotal : s.total + m.storedSize =
        Entry.total (s.entries ++ [⟨s.next, m.storedSize⟩]) := by
      rw [Entry.total_concat, hl.total]
    rw [htotal]
    exact subtracts_total s.limit _

theorem reachable_first (order : Order) (limit : Nat) (m : Envelope) :
    let s := ((openAt Directory.empty order).value.withLimit limit).value
    Reachable (s.push m).value.1 ∧ (s.push m).value.1.next = 1 := by
  intro s
  have hopened := Reachable.openAt order
  have hs : Reachable s := hopened.withLimit limit
  have hnext : s.next = 0 := (hopened.next_withLimit limit).trans (next_openAt_empty order)
  constructor
  · exact hs.push m (by rw [hnext]; decide)
  · rw [hs.next_push, hnext]

/-- The first of two messages has to go under a limit that neither of them fits into. -/
theorem index_exact_evicted :
    let s := (((openAt Directory.empty .lifo).value.withLimit 1).value.push ⟨"a", [1]⟩).value.1
    let t := (s.push ⟨"b", [2]⟩).value.1
    Reachable t ∧ Indexed t ∧ Entry.fileName t.next ∉ t.directory.names ∧
      (t.total = 0 ↔ t.isEmpty = true) := by
  intro s t
  obtain ⟨hs, hnext⟩ := reachable_first .lifo 1 ⟨"a", [1]⟩
  have ht : Reachable t := hs.push ⟨"b", [2]⟩ (by rw [hnext]; decide)
  obtain ⟨hindexed, hfree, -, -, -, -, hzero⟩ := ht.index_exact
  exact ⟨ht, hindexed, hfree, hzero⟩

end DeviceLink.Store.Disk
