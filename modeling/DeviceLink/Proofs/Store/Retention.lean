import DeviceLink.Proofs.Store.Reachable
import DeviceLink.Proofs.Store.Refinement

/-! What a limit leaves of the stored messages: the longest run of the newest that fits. -/
namespace DeviceLink.Store.Disk

theorem evict_order (s : Disk) (order : Order) :
    ({ s with order := order } : Disk).evict.value = { s.evict.value with order := order } := by
  unfold evict
  split_ifs
  · rfl
  · rfl

theorem push_order (s : Disk) (order : Order) (m : Envelope) :
    (({ s with order := order } : Disk).push m).value.1 =
      { (s.push m).value.1 with order := order } := by
  unfold push
  dsimp only
  generalize Text.encode (Envelope.stored.render m) = content
  cases s.directory.write? (Entry.fileName s.next) content with
  | none => rfl
  | some d =>
    exact evict_order
      { s with
        directory := d
        entries := s.entries ++ [⟨s.next, content.length⟩]
        next := s.next + 1
        total := s.total + content.length } order

/-- A store after a limit took effect on `held`: it holds the longest suffix that fits, or else
the newest message alone. -/
structure Retains (limit : Nat) (held : List Envelope) (s : Disk) (kept : List Envelope) :
    Prop where
  messages : s.messages = kept.map some
  newest : KeepsNewest Envelope.storedSize limit held kept
  total : s.total = (kept.map Envelope.storedSize).sum
  bounded : s.total ≤ limit ∨ s.size = 1
  whole : (held.map Envelope.storedSize).sum ≤ limit → kept = held
  order : kept.Sublist held

namespace Holds

variable {s : Disk} {l : List Stored}

theorem total_messages (h : Holds s l) :
    s.total = ((l.map Stored.message).map Envelope.storedSize).sum := by
  rw [h.total_eq, List.map_map, Function.comp_def]

theorem retains (h : Holds s l) (hlimit : s.limit ≠ 0) :
    ∃ kept, Retains s.limit (l.map Stored.message) s.evict.value kept := by
  obtain ⟨kept, hkept, hnewest, -, -, -⟩ := h.evict hlimit
  have hmessages : KeepsNewest Envelope.storedSize s.limit (l.map Stored.message)
      (kept.map Stored.message) := hnewest.map Stored.message
  refine ⟨kept.map Stored.message, hkept.messages_eq, hmessages, hkept.total_messages, ?_,
    hmessages.eq_of_fits, hmessages.suffix.sublist⟩
  rw [hkept.total_messages]
  have hlength : s.evict.value.size = (kept.map Stored.message).length := by
    rw [List.length_map]
    exact hkept.length_entries
  rw [hlength]
  exact hmessages.fits

end Holds

/-- After a limit is set or a message is pushed, a store holds the longest suffix of what it held
and what was pushed that fits into its limit, or else the newest message alone; the order in which
messages are taken out makes no difference. Without a limit nothing goes. -/
theorem Reachable.keeps_newest {s : Disk} (h : Reachable s) :
    ∃ held : List Envelope, s.messages = held.map some ∧
      s.total = (held.map Envelope.storedSize).sum ∧
      (∀ limit, 0 < limit → ∃ kept, Retains limit held (s.withLimit limit).value kept) ∧
      (∀ m, (s.push m).value.2 = true ∧
        (0 < s.limit → ∃ kept, Retains s.limit (held ++ [m]) (s.push m).value.1 kept ∧
          kept.getLast? = some m)) ∧
      (∀ order limit, ({ s with order := order }.withLimit limit).value.messages =
        (s.withLimit limit).value.messages) ∧
      (∀ order m, ({ s with order := order }.push m).value.1.messages =
        (s.push m).value.1.messages) ∧
      (s.withLimit 0).value.messages = held.map some ∧
      (s.limit = 0 → ∀ m, (s.push m).value.1.messages = (held ++ [m]).map some) := by
  obtain ⟨l, hl, -⟩ := h.holds
  have hmessages := hl.messages_eq
  refine ⟨l.map Stored.message, hmessages, hl.total_messages, ?_, ?_, ?_, ?_, ?_, ?_⟩
  · intro limit hlimit
    exact (hl.setLimit limit).retains (Nat.ne_of_gt hlimit)
  · intro m
    rw [hl.push_eq_evict m]
    refine ⟨rfl, fun hlimit => ?_⟩
    obtain ⟨kept, hkept⟩ := (hl.written m).retains (Nat.ne_of_gt hlimit)
    rw [List.map_append] at hkept
    refine ⟨kept, hkept, ?_⟩
    rw [hkept.newest.getLast?_eq]
    exact List.getLast?_concat
  · intro order limit
    have hvalue : ({ s with order := order }.withLimit limit).value =
        { (s.withLimit limit).value with order := order } :=
      evict_order { s with limit := limit } order
    rw [hvalue]
    rfl
  · intro order m
    rw [push_order]
    rfl
  · have hunlimited : (s.withLimit 0).value = { s with limit := 0 } :=
      congrArg Logged.value (evict_of_unlimited rfl)
    rw [hunlimited]
    exact hmessages
  · intro hlimit m
    obtain ⟨-, hpush, -, -, -⟩ := hl.push hlimit m
    rw [hpush.messages_eq, List.map_append]
    rfl

theorem keeps_newest_crowded :
    let s := (((openAt Directory.empty .lifo).value.withLimit 1).value.push ⟨"a", [1]⟩).value.1
    Reachable s ∧ ∃ held : List Envelope, s.messages = held.map some ∧
      (∃ kept, Retains 1 held (s.withLimit 1).value kept) ∧
      (s.push ⟨"b", [2]⟩).value.2 = true ∧ (s.withLimit 0).value.messages = held.map some := by
  intro s
  obtain ⟨hs, -⟩ := reachable_first .lifo 1 ⟨"a", [1]⟩
  obtain ⟨held, hheld, -, hlimit, hpush, -, -, hzero, -⟩ := hs.keeps_newest
  exact ⟨hs, held, hheld, hlimit 1 Nat.one_pos, (hpush ⟨"b", [2]⟩).1, hzero⟩

end DeviceLink.Store.Disk
