import DeviceLink.Proofs.Ascending
import DeviceLink.Proofs.Envelope
import DeviceLink.Proofs.Store.Entry

/-! The messages that a directory holds, as one list with the numbers of their files, and what each
operation does to that list. -/
namespace DeviceLink.Store

namespace Order

theorem next?_map {α β : Type} (o : Order) (f : α → β) (l : List α) :
    o.next? (l.map f) = (o.next? l).map f := by
  cases o with
  | fifo => exact List.head?_map
  | lifo => exact List.getLast?_map

theorem rest_map {α β : Type} (o : Order) (f : α → β) (l : List α) :
    o.rest (l.map f) = (o.rest l).map f := by
  cases o with
  | fifo => exact List.map_tail.symm
  | lifo => exact List.map_dropLast.symm

theorem rest_sublist {α : Type} (o : Order) (l : List α) : (o.rest l).Sublist l := by
  cases o with
  | fifo => exact List.tail_sublist l
  | lifo => exact List.dropLast_sublist l

theorem eq_nil_of_next?_eq_none {α : Type} {o : Order} {l : List α} (h : o.next? l = none) :
    l = [] := by
  cases o with
  | fifo => exact List.head?_eq_none_iff.mp h
  | lifo => exact List.getLast?_eq_none_iff.mp h

/-- The item that is next, beside the others. -/
theorem perm_next {α : Type} {o : Order} {l : List α} {a : α} (h : o.next? l = some a) :
    l.Perm (a :: o.rest l) := by
  cases o with
  | fifo =>
    obtain ⟨t, rfl⟩ := List.head?_eq_some_iff.mp h
    exact List.Perm.refl _
  | lifo =>
    obtain ⟨t, rfl⟩ := List.getLast?_eq_some_iff.mp h
    show (t ++ [a]).Perm (a :: (t ++ [a]).dropLast)
    rw [List.dropLast_concat]
    exact List.perm_append_singleton a t

end Order

/-- Where no name stands twice, exactly the files of a directory can be read. -/
theorem Directory.read?_eq_some_iff {d : Directory} (h : (d.nodes.map Prod.fst).Nodup)
    {name : String} {content : Octets} :
    d.read? name = some content ↔ (name, .file content) ∈ d.nodes := by
  rw [← Ascending.find?_eq_some_iff h]
  unfold read?
  cases Ascending.find? name d.nodes with
  | none => simp
  | some node =>
    cases node with
    | file => simp
    | folder size => simp

structure Stored where
  number : Nat
  message : Envelope
  deriving DecidableEq, Repr

namespace Stored

def content (x : Stored) : Octets := Text.encode (Envelope.stored.render x.message)

def name (x : Stored) : String := Entry.fileName x.number

def node (x : Stored) : String × Node := (x.name, .file x.content)

def entry (x : Stored) : Entry := ⟨x.number, x.content.length⟩

@[simp] theorem entry_number (x : Stored) : x.entry.number = x.number := by rw [entry]

@[simp] theorem entry_size (x : Stored) : x.entry.size = x.content.length := by rw [entry]

/-- Numbers ascend from the oldest message to the newest. -/
def Ascending (l : List Stored) : Prop := l.Pairwise fun x y => x.number < y.number

theorem Ascending.nodup_names {l : List Stored} (h : Ascending l) :
    ((l.map node).map Prod.fst).Nodup := by
  rw [List.map_map]
  refine List.pairwise_map.mpr (h.imp fun hlt heq => ?_)
  exact Nat.ne_of_lt hlt (Entry.fileName_injective heq)

end Stored

namespace Disk

/-- The messages that an opened directory holds, from the oldest to the newest: each in its file,
listed in the index with the size of that file, and no other file beside them. -/
structure Holds (s : Disk) (l : List Stored) : Prop where
  nodes : s.directory.nodes.Perm (l.map Stored.node)
  entries : s.entries = l.map Stored.entry
  ascending : Stored.Ascending l
  below : ∀ x ∈ l, x.number < s.next
  total : s.total = Entry.total s.entries

namespace Holds

variable {s : Disk} {l : List Stored}

theorem nodup_names (h : Holds s l) : (s.directory.nodes.map Prod.fst).Nodup :=
  (h.nodes.map Prod.fst).nodup_iff.mpr h.ascending.nodup_names

theorem find?_node (h : Holds s l) {x : Stored} (hx : x ∈ l) :
    Ascending.find? x.name s.directory.nodes = some (.file x.content) :=
  (Ascending.find?_eq_some_iff h.nodup_names).mpr
    (h.nodes.mem_iff.mpr (List.mem_map_of_mem hx))

theorem read?_file (h : Holds s l) {x : Stored} (hx : x ∈ l) :
    s.directory.read? (Entry.fileName x.number) = some x.content := by
  apply (Directory.read?_eq_some_iff h.nodup_names).mpr
  exact h.nodes.mem_iff.mpr (List.mem_map_of_mem (f := Stored.node) hx)

theorem next_not_mem (h : Holds s l) :
    Entry.fileName s.next ∉ s.directory.nodes.map Prod.fst := by
  intro hmem
  rw [(h.nodes.map Prod.fst).mem_iff, List.map_map] at hmem
  obtain ⟨x, hx, heq⟩ := List.mem_map.mp hmem
  exact Nat.ne_of_lt (h.below x hx) (Entry.fileName_injective heq)

theorem length_entries (h : Holds s l) : s.entries.length = l.length := by
  rw [h.entries, List.length_map]

theorem next?_entries (h : Holds s l) :
    s.order.next? s.entries = (s.order.next? l).map Stored.entry := by
  rw [h.entries, Order.next?_map]

/-- The message that is next is read back as it was stored. -/
theorem front_value (h : Holds s l) :
    s.front.value = (s.order.next? l).map Stored.message := by
  unfold front
  rw [h.next?_entries]
  cases hx : s.order.next? l with
  | none => rfl
  | some x =>
    have hmem : x ∈ l := (Order.perm_next hx).mem_iff.mpr List.mem_cons_self
    have hparse : Envelope.stored.parse x.content = .ok x.message :=
      Envelope.parse_stored x.message
    simp only [Option.map_some, Stored.entry, h.read?_file hmem, hparse]

/-- The file of the message that is next is there, and without it the others are left. -/
theorem remove?_next (h : Holds s l) {x : Stored} (hx : s.order.next? l = some x) :
    ∃ d, s.directory.remove? (Entry.fileName x.number) = some d ∧
      d.nodes.Perm ((s.order.rest l).map Stored.node) := by
  have hperm := Order.perm_next hx
  have hfind : Ascending.find? (Entry.fileName x.number) s.directory.nodes =
      some (.file x.content) := h.find?_node (hperm.mem_iff.mpr List.mem_cons_self)
  have hnodes : s.directory.nodes.Perm (x.node :: (s.order.rest l).map Stored.node) :=
    h.nodes.trans (hperm.map Stored.node)
  have hnodup := (hnodes.map Prod.fst).nodup_iff.mp h.nodup_names
  unfold Directory.remove?
  rw [hfind]
  exact ⟨_, rfl, Ascending.erase_perm hnodes (List.nodup_cons.mp hnodup).1⟩

theorem pop_of_none (h : Holds s l) (hx : s.order.next? l = none) : s.pop = ⟨s, []⟩ := by
  unfold Disk.pop
  rw [h.next?_entries, hx]
  rfl

/-- The message that is next goes, with its file, and the others stay. -/
theorem pop (h : Holds s l) : Holds s.pop.value (s.order.rest l) ∧
    s.pop.value.order = s.order ∧ s.pop.value.limit = s.limit ∧ s.pop.value.next = s.next := by
  cases hx : s.order.next? l with
  | none =>
    have hrest : s.order.rest l = l := by
      rw [Order.eq_nil_of_next?_eq_none hx]
      cases s.order <;> rfl
    rw [h.pop_of_none hx, hrest]
    exact ⟨h, rfl, rfl, rfl⟩
  | some x =>
    obtain ⟨d, hremove, hnodes⟩ := h.remove?_next hx
    have hnext : s.order.next? s.entries = some x.entry := by
      rw [h.next?_entries, hx, Option.map_some]
    have hpop : s.pop = ⟨{ s with
        directory := d
        entries := s.order.rest s.entries
        total := s.total - x.content.length }, []⟩ := by
      unfold Disk.pop
      rw [hnext]
      simp only [Stored.entry, hremove]
    have htotal : s.total = x.content.length + Entry.total (s.order.rest s.entries) := by
      rw [h.total, Entry.total_perm (Order.perm_next hnext), Entry.total_cons, Stored.entry]
    have hsub := Order.rest_sublist s.order l
    rw [hpop]
    refine ⟨⟨hnodes, ?_, h.ascending.sublist hsub, fun y hy => h.below y (hsub.subset hy), ?_⟩,
      rfl, rfl, rfl⟩
    · rw [← Order.rest_map, ← h.entries]
    · show s.total - x.content.length = _
      rw [htotal, Nat.add_sub_cancel_left]

/-- A message that is stored without a limit becomes the newest, in a file of its own. -/
theorem push (h : Holds s l) (hlimit : s.limit = 0) (m : Envelope) :
    (s.push m).value.2 = true ∧ Holds (s.push m).value.1 (l ++ [⟨s.next, m⟩]) ∧
      (s.push m).value.1.order = s.order ∧ (s.push m).value.1.limit = 0 ∧
      (s.push m).value.1.next = s.next + 1 := by
  have hfree := Ascending.find?_eq_none_iff.mpr h.next_not_mem
  have hpush : s.push m = ⟨({ s with
      directory := ⟨Ascending.insert (Entry.fileName s.next)
        (.file (Stored.content ⟨s.next, m⟩)) s.directory.nodes⟩
      entries := s.entries ++ [Stored.entry ⟨s.next, m⟩]
      next := s.next + 1
      total := s.total + (Stored.content ⟨s.next, m⟩).length }, true), []⟩ := by
    unfold Disk.push Directory.write? evict
    rw [hfree]
    simp only [hlimit, if_true]
    rfl
  have hnodes : (Ascending.insert (Entry.fileName s.next) (Node.file (Stored.content ⟨s.next, m⟩))
      s.directory.nodes).Perm ((l ++ [(⟨s.next, m⟩ : Stored)]).map Stored.node) := by
    rw [List.map_append]
    exact (Ascending.insert_perm _ h.next_not_mem).trans
      ((h.nodes.cons _).trans (List.perm_append_singleton _ _).symm)
  rw [hpush]
  refine ⟨rfl, ⟨hnodes, ?_, ?_, ?_, ?_⟩, rfl, hlimit, rfl⟩
  · rw [List.map_append, ← h.entries]
    rfl
  · apply List.pairwise_append.mpr
    refine ⟨h.ascending, List.pairwise_singleton _ _, fun x hx y hy => ?_⟩
    rw [List.mem_singleton.mp hy]
    exact h.below x hx
  · intro x hx
    rcases List.mem_append.mp hx with hx | hx
    · exact Nat.lt_succ_of_lt (h.below x hx)
    · rw [List.mem_singleton.mp hx]
      exact Nat.lt_succ_self _
  · show s.total + (Stored.content ⟨s.next, m⟩).length =
      Entry.total (s.entries ++ [Stored.entry ⟨s.next, m⟩])
    rw [Entry.total_concat, ← h.total, Stored.entry]

/-- Opened again, a directory lists the messages in the order in which they were stored. -/
theorem ofDirectory_eq (h : Holds s l) (hfit : ∀ x ∈ l, x.number < limit64) :
    Entry.ofDirectory s.directory = l.map Stored.entry := by
  have hfile : ∀ x ∈ l, ((Entry.number? x.name).map fun number =>
      (⟨number, x.content.length⟩ : Entry)) = some x.entry := by
    intro x hx
    rw [Stored.name, Entry.number?_fileName (hfit x hx)]
    rfl
  have hperm := h.nodes.filterMap fun file =>
    (Entry.number? file.1).map fun number => (⟨number, file.2.size⟩ : Entry)
  have hmap : (l.map Stored.node).filterMap (fun file =>
      (Entry.number? file.1).map fun number => (⟨number, file.2.size⟩ : Entry)) =
      l.map Stored.entry := by
    rw [List.filterMap_map, ← List.filterMap_eq_map]
    exact List.filterMap_congr hfile
  rw [hmap] at hperm
  exact Entry.mergeSort_eq hperm (List.pairwise_map.mpr h.ascending)

/-- Whatever the order in which a directory is opened again, it holds the same messages. -/
theorem openAt (h : Holds s l) (hfit : ∀ x ∈ l, x.number < limit64) (order : Order) :
    Holds (openAt s.directory order).value l ∧ (openAt s.directory order).value.order = order ∧
      (openAt s.directory order).value.limit = 0 ∧
      (openAt s.directory order).value.next ≤ s.next := by
  have hentries : (Disk.openAt s.directory order).value.entries = l.map Stored.entry :=
    h.ofDirectory_eq hfit
  have hnext : (Disk.openAt s.directory order).value.next =
      (l.getLast?.map fun x => x.number + 1).getD 0 := by
    show ((Entry.ofDirectory s.directory).getLast?.map fun e => e.number + 1).getD 0 = _
    rw [h.ofDirectory_eq hfit, List.getLast?_map, Option.map_map]
    rfl
  -- The next number may have belonged to a message that was removed; all that is left lies below.
  cases hlast : l.getLast? with
  | none =>
    have hnil : l = [] := List.getLast?_eq_none_iff.mp hlast
    rw [hlast] at hnext
    refine ⟨⟨h.nodes, hentries, h.ascending, ?_, rfl⟩, rfl, rfl, ?_⟩
    · simp [hnil]
    · rw [hnext]
      exact Nat.zero_le _
  | some x =>
    obtain ⟨older, rfl⟩ := List.getLast?_eq_some_iff.mp hlast
    rw [hlast, Option.map_some, Option.getD_some] at hnext
    have hx : x.number < s.next := h.below x (by simp)
    refine ⟨⟨h.nodes, hentries, h.ascending, fun y hy => ?_, rfl⟩, rfl, rfl, ?_⟩
    · rw [hnext]
      rcases List.mem_append.mp hy with hy | hy
      · have hlt := (List.pairwise_append.mp h.ascending).2.2 y hy x (List.mem_singleton_self x)
        exact Nat.lt_succ_of_lt hlt
      · rw [List.mem_singleton.mp hy]
        exact Nat.lt_succ_self _
    · rw [hnext]
      exact hx

end Holds

theorem holds_empty (order : Order) : Holds (openAt Directory.empty order).value [] where
  nodes := List.Perm.refl _
  entries := List.mergeSort_nil
  ascending := List.Pairwise.nil
  below := by simp
  total := rfl

end Disk
end DeviceLink.Store
