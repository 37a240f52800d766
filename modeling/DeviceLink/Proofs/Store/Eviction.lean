import DeviceLink.Proofs.Store.Contents
import Mathlib.Data.List.Infix

/-! Eviction: a store with a limit keeps its newest messages, as many as fit together. -/
namespace DeviceLink

def Envelope.storedSize (m : Envelope) : Nat := (Text.encode (Envelope.stored.render m)).length

theorem Envelope.storedSize_pos (m : Envelope) : 0 < m.storedSize := by
  apply List.length_pos_iff.mpr
  intro hnil
  have hparse := Envelope.parse_stored m
  rw [hnil] at hparse
  cases hparse

namespace Store

theorem Stored.length_content (x : Stored) : x.content.length = x.message.storedSize := by
  unfold Stored.content Envelope.storedSize
  rfl

section KeepsNewest

variable {α β : Type} {size : α → Nat} {limit : Nat} {held kept : List α}

/-- `kept` is the longest suffix of `held` whose sizes fit into the limit together, but the last
item of `held` is kept even where it does not fit alone. -/
structure KeepsNewest (size : α → Nat) (limit : Nat) (held kept : List α) : Prop where
  suffix : kept <:+ held
  nonempty : held ≠ [] → kept ≠ []
  fits : (kept.map size).sum ≤ limit ∨ kept.length = 1
  longest : ∀ l, l <:+ held → (l.map size).sum ≤ limit → l <:+ kept

theorem keepsNewest_of_fits (h : (held.map size).sum ≤ limit) :
    KeepsNewest size limit held held where
  suffix := List.suffix_refl held
  nonempty := id
  fits := Or.inl h
  longest _ hl _ := hl

theorem keepsNewest_singleton (a : α) : KeepsNewest size limit [a] [a] where
  suffix := List.suffix_refl [a]
  nonempty := id
  fits := Or.inr rfl
  longest _ hl _ := hl

namespace KeepsNewest

/-- An item before all others goes where it makes them too many. -/
theorem cons (h : KeepsNewest size limit held kept) (hheld : held ≠ []) {a : α}
    (ha : limit < ((a :: held).map size).sum) : KeepsNewest size limit (a :: held) kept where
  suffix := h.suffix.trans (List.suffix_cons a held)
  nonempty _ := h.nonempty hheld
  fits := h.fits
  longest l hl hfit := by
    rcases List.suffix_cons_iff.mp hl with rfl | hl
    · omega
    · exact h.longest l hl hfit

theorem map (f : β → α) {held kept : List β}
    (h : KeepsNewest (fun b => size (f b)) limit held kept) :
    KeepsNewest size limit (held.map f) (kept.map f) where
  suffix := h.suffix.map f
  nonempty hne := by
    have hheld : held ≠ [] := fun hnil => hne (by rw [hnil]; rfl)
    exact fun hnil => h.nonempty hheld (List.map_eq_nil_iff.mp hnil)
  fits := by
    rw [List.map_map, List.length_map]
    exact h.fits
  longest l hl hfit := by
    obtain ⟨older, hsplit⟩ := hl
    obtain ⟨l₁, l₂, hheld, -, rfl⟩ := List.append_eq_map_iff.mp hsplit
    rw [List.map_map] at hfit
    exact (h.longest l₂ ⟨l₁, hheld.symm⟩ hfit).map f

theorem eq_of_fits (h : KeepsNewest size limit held kept) (hfit : (held.map size).sum ≤ limit) :
    kept = held := by
  have hlong : held <:+ kept := h.longest held (List.suffix_refl held) hfit
  exact h.suffix.eq_of_length_le hlong.length_le

theorem getLast?_eq (h : KeepsNewest size limit held kept) : kept.getLast? = held.getLast? := by
  obtain ⟨older, rfl⟩ := h.suffix
  by_cases hkept : kept = []
  · have hheld : older ++ kept = [] := by
      by_contra hne
      exact h.nonempty hne hkept
    rw [hheld, hkept]
  · rw [List.getLast?_append_of_ne_nil older hkept]

end KeepsNewest
end KeepsNewest

namespace Disk

/-- No size that the eviction loop takes off the running total exceeds it. -/
def Subtracts (limit : Nat) : Nat → List Entry → Prop
  | total, e :: e' :: rest =>
    limit < total → e.size ≤ total ∧ Subtracts limit (total - e.size) (e' :: rest)
  | _, _ => True

theorem subtracts_total (limit : Nat) (l : List Entry) : Subtracts limit (Entry.total l) l := by
  induction l with
  | nil => trivial
  | cons e rest ih =>
    cases rest with
    | nil => trivial
    | cons e' rest =>
      intro _
      rw [Entry.total_cons, Nat.add_sub_cancel_left]
      exact ⟨Nat.le_add_right _ _, ih⟩

theorem total_entries (l : List Stored) :
    Entry.total (l.map Stored.entry) = (l.map fun x => x.message.storedSize).sum := by
  induction l with
  | nil => rfl
  | cons x l ih =>
    rw [List.map_cons, Entry.total_cons, ih, Stored.entry_size, x.length_content, List.map_cons,
      List.sum_cons]

private theorem evictFile_nodes {d : Directory} {x : Stored} {l : List Stored}
    (hascending : Stored.Ascending (x :: l)) (hnodes : d.nodes.Perm ((x :: l).map Stored.node)) :
    (evictFile d x.entry).value.nodes.Perm (l.map Stored.node) := by
  have hnodup : (d.nodes.map Prod.fst).Nodup :=
    (hnodes.map Prod.fst).nodup_iff.mpr hascending.nodup_names
  have hfind : Ascending.find? (Entry.fileName x.entry.number) d.nodes =
      some (.file x.content) := by
    apply (Ascending.find?_eq_some_iff hnodup).mpr
    exact hnodes.mem_iff.mpr List.mem_cons_self
  have hfree := (List.nodup_cons.mp hascending.nodup_names).1
  unfold evictFile Directory.remove?
  rw [hfind]
  exact Ascending.erase_perm hnodes hfree

/-- The loop drops messages with their files from the old end, and no more than it must. -/
theorem evictFrom_keeps (limit : Nat) {d : Directory} {l : List Stored}
    (hascending : Stored.Ascending l) (hnodes : d.nodes.Perm (l.map Stored.node)) :
    ∃ d' kept, (evictFrom limit d (Entry.total (l.map Stored.entry)) (l.map Stored.entry)).value =
        (d', Entry.total (kept.map Stored.entry), kept.map Stored.entry) ∧
      d'.nodes.Perm (kept.map Stored.node) ∧
      KeepsNewest (fun x => x.message.storedSize) limit l kept := by
  induction l generalizing d with
  | nil => exact ⟨d, [], rfl, hnodes, keepsNewest_of_fits (Nat.zero_le _)⟩
  | cons x l ih =>
    cases l with
    | nil => exact ⟨d, [x], rfl, hnodes, keepsNewest_singleton x⟩
    | cons y l =>
      have hsizes : Entry.total ((x :: y :: l).map Stored.entry) =
          ((x :: y :: l).map fun x => x.message.storedSize).sum := total_entries (x :: y :: l)
      by_cases hfit : Entry.total ((x :: y :: l).map Stored.entry) ≤ limit
      · refine ⟨d, x :: y :: l, ?_, hnodes, keepsNewest_of_fits (hsizes ▸ hfit)⟩
        rw [List.map_cons, List.map_cons] at hfit ⊢
        rw [evictFrom, if_pos hfit]
      · obtain ⟨d', kept, hloop, hkept, hnewest⟩ :=
          ih (List.pairwise_cons.mp hascending).2 (evictFile_nodes hascending hnodes)
        refine ⟨d', kept, ?_, hkept, hnewest.cons (List.cons_ne_nil y l) (by omega)⟩
        rw [List.map_cons, List.map_cons] at hfit ⊢
        rw [evictFrom, if_neg hfit, Entry.total_cons, Nat.add_sub_cancel_left]
        exact hloop

namespace Holds

variable {s : Disk} {l : List Stored}

theorem total_eq (h : Holds s l) : s.total = (l.map fun x => x.message.storedSize).sum := by
  rw [h.total, h.entries, total_entries]

/-- Under a limit the newest messages are left, as many as fit. -/
theorem evict (h : Holds s l) (hlimit : s.limit ≠ 0) :
    ∃ kept, Holds s.evict.value kept ∧
      KeepsNewest (fun x => x.message.storedSize) s.limit l kept ∧
      s.evict.value.order = s.order ∧ s.evict.value.limit = s.limit ∧
      s.evict.value.next = s.next := by
  obtain ⟨d, kept, hloop, hnodes, hnewest⟩ := evictFrom_keeps s.limit h.ascending h.nodes
  rw [← h.entries, ← h.total] at hloop
  have hevict : s.evict.value = { s with
      directory := d
      total := Entry.total (kept.map Stored.entry)
      entries := kept.map Stored.entry } := by
    unfold Disk.evict
    rw [if_neg hlimit]
    simp only [hloop]
  have hsub := hnewest.suffix.sublist
  rw [hevict]
  refine ⟨kept, ⟨hnodes, rfl, h.ascending.sublist hsub, ?_, rfl⟩, hnewest, rfl, rfl, rfl⟩
  exact fun x hx => h.below x (hsub.subset hx)

end Holds

theorem evict_of_unlimited {s : Disk} (h : s.limit = 0) : s.evict = ⟨s, []⟩ := by
  unfold evict
  rw [if_pos h]

namespace Holds

variable {s : Disk} {l : List Stored}

theorem setLimit (h : Holds s l) (limit : Nat) : Holds { s with limit := limit } l :=
  ⟨h.nodes, h.entries, h.ascending, h.below, h.total⟩

/-- Whatever the limit, an eviction keeps what is left in its files. -/
theorem evict_holds (h : Holds s l) : ∃ kept, Holds s.evict.value kept ∧ kept <:+ l ∧
    s.evict.value.next = s.next := by
  by_cases hlimit : s.limit = 0
  · rw [evict_of_unlimited hlimit]
    exact ⟨l, h, List.suffix_refl l, rfl⟩
  · obtain ⟨kept, hkept, hnewest, -, -, hnext⟩ := h.evict hlimit
    exact ⟨kept, hkept, hnewest.suffix, hnext⟩

/-- A message is stored as if there were no limit, and then the limit takes effect. -/
theorem push_eq_evict (h : Holds s l) (m : Envelope) :
    (s.push m).value =
      (({ ({ s with limit := 0 }.push m).value.1 with limit := s.limit } : Disk).evict.value,
        true) := by
  have hfree := Ascending.find?_eq_none_iff.mpr h.next_not_mem
  unfold Disk.push Directory.write?
  rw [hfree]
  simp only [evict_of_unlimited]

/-- The messages before an eviction that a new one brings about, the new one last. -/
theorem written (h : Holds s l) (m : Envelope) :
    Holds { ({ s with limit := 0 }.push m).value.1 with limit := s.limit }
      (l ++ [⟨s.next, m⟩]) :=
  ((h.setLimit 0).push rfl m).2.1.setLimit s.limit

end Holds
end Disk
end Store
end DeviceLink
