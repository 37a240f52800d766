import DeviceLink.Proofs.Store.Contents
import DeviceLink.Store.Memory

/-! A directory of messages answers like a list of messages, however often it is opened again, and
like a queue in memory where the oldest message is next. -/
namespace DeviceLink.Store

inductive Call
  | push (message : Envelope)
  | pop
  | front
  | size
  | isEmpty
  /-- The store is closed, and opened again in an order of its own. -/
  | reopen (order : Order)
  deriving DecidableEq, Repr

inductive Answer
  | done
  | pushed (kept : Bool)
  | front (message : Option Envelope)
  | size (count : Nat)
  | isEmpty (empty : Bool)
  deriving DecidableEq, Repr

def replay {σ : Type} (step : σ → Call → σ × Answer) (s : σ) : List Call → σ × List Answer
  | [] => (s, [])
  | c :: rest =>
    let r := step s c
    let t := replay step r.1 rest
    (t.1, r.2 :: t.2)

def Disk.step (s : Disk) : Call → Disk × Answer
  | .push m => ((s.push m).value.1, .pushed (s.push m).value.2)
  | .pop => (s.pop.value, .done)
  | .front => (s, .front s.front.value)
  | .size => (s, .size s.size)
  | .isEmpty => (s, .isEmpty s.isEmpty)
  | .reopen order => ((Disk.openAt s.directory order).value, .done)

/-- A queue in memory is not opened again. -/
def Memory.step (q : Memory) : Call → Memory × Answer
  | .push m => ((q.offer m).1, .pushed (q.offer m).2)
  | .pop => (q.pop, .done)
  | .front => (q, .front q.front)
  | .size => (q, .size q.size)
  | .isEmpty => (q, .isEmpty q.isEmpty)
  | .reopen _ => (q, .done)

/-- A list of messages, the oldest first, and the end from which it is read. -/
structure Shelf where
  order : Order
  messages : List Envelope
  deriving DecidableEq, Repr

def Shelf.step (q : Shelf) : Call → Shelf × Answer
  | .push m => (⟨q.order, q.messages ++ [m]⟩, .pushed true)
  | .pop =>
    match q.order with
    | .fifo => (⟨.fifo, q.messages.tail⟩, .done)
    | .lifo => (⟨.lifo, q.messages.dropLast⟩, .done)
  | .front =>
    match q.order with
    | .fifo => (q, .front q.messages.head?)
    | .lifo => (q, .front q.messages.getLast?)
  | .size => (q, .size q.messages.length)
  | .isEmpty => (q, .isEmpty q.messages.isEmpty)
  | .reopen order => (⟨order, q.messages⟩, .done)

theorem Shelf.step_pop (q : Shelf) : q.step .pop = (⟨q.order, q.order.rest q.messages⟩, .done) := by
  obtain ⟨order, messages⟩ := q
  cases order <;> rfl

theorem Shelf.step_front (q : Shelf) :
    q.step .front = (q, .front (q.order.next? q.messages)) := by
  obtain ⟨order, messages⟩ := q
  cases order <;> rfl

namespace Disk

/-- All through a run the number of the next file fits into 64 bits. -/
def Fits (s : Disk) : List Call → Prop
  | [] => s.next < limit64
  | c :: rest => s.next < limit64 ∧ Fits (s.step c).1 rest

/-- The stored messages as they are read back, the oldest first. -/
def messages (s : Disk) : List (Option Envelope) :=
  s.entries.map fun e => (s.directory.read? (Entry.fileName e.number)).bind fun content =>
    (Envelope.stored.parse content).toOption

theorem Holds.messages_eq {s : Disk} {l : List Stored} (h : Holds s l) :
    s.messages = (l.map Stored.message).map some := by
  have hread : ∀ x ∈ l, ((s.directory.read? (Entry.fileName x.entry.number)).bind fun content =>
      (Envelope.stored.parse content).toOption) = some x.message := by
    intro x hx
    have hparse : Envelope.stored.parse x.content = .ok x.message :=
      Envelope.parse_stored x.message
    rw [Stored.entry, h.read?_file hx, Option.bind_some, hparse]
    rfl
  unfold Disk.messages
  rw [h.entries, List.map_map, List.map_map]
  exact List.map_congr_left hread

/-- A directory opened without a limit that holds the messages of a list. -/
structure Refines (s : Disk) (q : Shelf) (l : List Stored) : Prop where
  holds : Holds s l
  unlimited : s.limit = 0
  order : s.order = q.order
  messages : q.messages = l.map Stored.message

namespace Refines

variable {s : Disk} {q : Shelf} {l : List Stored}

/-- One call: the answers agree, and the directory holds what the list has become. -/
theorem step (h : Refines s q l) (hfit : s.next < limit64) (c : Call) :
    (s.step c).2 = (q.step c).2 ∧ ∃ l', Refines (s.step c).1 (q.step c).1 l' := by
  cases c with
  | push m =>
    obtain ⟨hkept, hholds, horder, hlimit, -⟩ := h.holds.push h.unlimited m
    refine ⟨congrArg Answer.pushed hkept, _, hholds, hlimit, horder.trans h.order, ?_⟩
    show q.messages ++ [m] = _
    rw [List.map_append, ← h.messages]
    rfl
  | pop =>
    obtain ⟨hholds, horder, hlimit, -⟩ := h.holds.pop
    rw [Shelf.step_pop]
    refine ⟨rfl, _, hholds, hlimit.trans h.unlimited, horder.trans h.order, ?_⟩
    show q.order.rest q.messages = _
    rw [h.messages, Order.rest_map, h.order]
  | front =>
    rw [Shelf.step_front]
    refine ⟨?_, l, h⟩
    show Answer.front s.front.value = .front (q.order.next? q.messages)
    rw [h.holds.front_value, h.messages, Order.next?_map, h.order]
  | size =>
    refine ⟨?_, l, h⟩
    show Answer.size s.entries.length = .size q.messages.length
    rw [h.holds.length_entries, h.messages, List.length_map]
  | isEmpty =>
    refine ⟨?_, l, h⟩
    show Answer.isEmpty s.entries.isEmpty = .isEmpty q.messages.isEmpty
    rw [h.holds.entries, h.messages, List.isEmpty_map, List.isEmpty_map]
  | reopen order =>
    have hnumbers : ∀ x ∈ l, x.number < limit64 :=
      fun x hx => Nat.lt_trans (h.holds.below x hx) hfit
    obtain ⟨hholds, horder, hlimit, -⟩ := h.holds.openAt hnumbers order
    exact ⟨rfl, l, hholds, hlimit, horder, h.messages⟩

/-- A run: the answers agree throughout. -/
theorem replay (h : Refines s q l) {calls : List Call} (hfit : s.Fits calls) :
    (replay Disk.step s calls).2 = (replay Shelf.step q calls).2 ∧
      ∃ l', Refines (replay Disk.step s calls).1 (replay Shelf.step q calls).1 l' := by
  induction calls generalizing s q l with
  | nil => exact ⟨rfl, l, h⟩
  | cons c rest ih =>
    obtain ⟨hnext, hrest⟩ := hfit
    obtain ⟨hanswer, l', hstep⟩ := h.step hnext c
    obtain ⟨hanswers, hend⟩ := ih hstep hrest
    exact ⟨congrArg₂ List.cons hanswer hanswers, hend⟩

theorem messages_eq (h : Refines s q l) : s.messages = q.messages.map some := by
  rw [h.holds.messages_eq, h.messages]

theorem front_value (h : Refines s q l) : s.front.value = q.order.next? q.messages := by
  rw [h.holds.front_value, h.messages, Order.next?_map, h.order]

theorem isEmpty_iff (h : Refines s q l) : s.isEmpty = true ↔ q.messages = [] := by
  unfold Disk.isEmpty
  rw [h.holds.entries, h.messages, List.isEmpty_map, List.isEmpty_iff, List.map_eq_nil_iff]

theorem front_eq_none_iff (h : Refines s q l) : s.front.value = none ↔ s.isEmpty = true := by
  rw [h.front_value, h.isEmpty_iff]
  refine ⟨Order.eq_nil_of_next?_eq_none, fun hnil => ?_⟩
  rw [hnil]
  cases q.order <;> rfl

theorem pop_of_isEmpty (h : Refines s q l) (hempty : s.isEmpty = true) : s.pop = ⟨s, []⟩ := by
  refine h.holds.pop_of_none ?_
  rw [h.isEmpty_iff, h.messages, List.map_eq_nil_iff] at hempty
  rw [hempty]
  cases s.order <;> rfl

/-- A removal takes the message that is in front, and leaves the others as they are. -/
theorem messages_pop (h : Refines s q l) {m : Envelope} (hm : s.front.value = some m) :
    s.messages = match s.order with
      | .fifo => some m :: s.pop.value.messages
      | .lifo => s.pop.value.messages ++ [some m] := by
  obtain ⟨l', hpop⟩ : ∃ l', Refines s.pop.value ⟨q.order, q.order.rest q.messages⟩ l' := by
    obtain ⟨hholds, horder, hlimit, -⟩ := h.holds.pop
    refine ⟨_, hholds, hlimit.trans h.unlimited, horder.trans h.order, ?_⟩
    rw [h.messages, Order.rest_map, h.order]
  rw [h.front_value] at hm
  rw [h.messages_eq, hpop.messages_eq, h.order]
  cases horder : q.order with
  | fifo =>
    rw [horder] at hm
    obtain ⟨t, ht⟩ := List.head?_eq_some_iff.mp hm
    rw [ht]
    rfl
  | lifo =>
    rw [horder] at hm
    obtain ⟨t, ht⟩ := List.getLast?_eq_some_iff.mp hm
    show q.messages.map some = q.messages.dropLast.map some ++ [some m]
    rw [ht, List.dropLast_concat, List.map_append]
    rfl

end Refines

theorem refines_empty (order : Order) :
    Refines (openAt Directory.empty order).value ⟨order, []⟩ [] :=
  ⟨holds_empty order, rfl, rfl, rfl⟩

def run (order : Order) (calls : List Call) : Disk × List Answer :=
  replay step (openAt Directory.empty order).value calls

/-- A run with fewer calls than there are file numbers never runs out of them. -/
theorem Refines.fits {s : Disk} {q : Shelf} {l : List Stored} (h : Refines s q l)
    {calls : List Call} (hcalls : s.next + calls.length < limit64) : s.Fits calls := by
  induction calls generalizing s q l with
  | nil => exact hcalls
  | cons c rest ih =>
    rw [List.length_cons] at hcalls
    have hnext : s.next < limit64 := by omega
    obtain ⟨-, l', hstep⟩ := h.step hnext c
    have hle : (s.step c).1.next ≤ s.next + 1 := by
      cases c with
      | push m => exact Nat.le_of_eq (h.holds.push h.unlimited m).2.2.2.2
      | pop => exact Nat.le_succ_of_le (Nat.le_of_eq h.holds.pop.2.2.2)
      | front => exact Nat.le_succ _
      | size => exact Nat.le_succ _
      | isEmpty => exact Nat.le_succ _
      | reopen order =>
        have hnumbers : ∀ x ∈ l, x.number < limit64 :=
          fun x hx => Nat.lt_trans (h.holds.below x hx) hnext
        exact Nat.le_succ_of_le (h.holds.openAt hnumbers order).2.2.2
    exact ⟨hnext, ih hstep (by omega)⟩

end Disk

/-- Where the oldest message is next throughout, a queue in memory answers like the list. -/
theorem Memory.replay_eq (l : List Envelope) {calls : List Call}
    (hfifo : ∀ order, .reopen order ∈ calls → order = .fifo) :
    (replay Memory.step ⟨l⟩ calls).2 = (replay Shelf.step ⟨.fifo, l⟩ calls).2 := by
  induction calls generalizing l with
  | nil => rfl
  | cons c rest ih =>
    have hrest := fun l => ih l fun order h => hfifo order (List.mem_cons_of_mem _ h)
    cases c with
    | push m => exact congrArg (_ :: ·) (hrest _)
    | pop => exact congrArg (_ :: ·) (hrest _)
    | front => exact congrArg (_ :: ·) (hrest _)
    | size => exact congrArg (_ :: ·) (hrest _)
    | isEmpty => exact congrArg (_ :: ·) (hrest _)
    | reopen order =>
      have horder : order = .fifo := hfifo order List.mem_cons_self
      rw [horder]
      exact congrArg (_ :: ·) (hrest _)

/-- Through any calls, a directory without a limit answers like the list of the messages that are
stored in it, and in the end it holds that list; what is in front, and only that, goes with a
removal. Where the oldest message is next throughout, a queue in memory answers alike. -/
theorem Disk.run_like_list (order : Order) (calls : List Call)
    (hfit : (openAt Directory.empty order).value.Fits calls) :
    (run order calls).2 = (replay Shelf.step ⟨order, []⟩ calls).2 ∧
      (run order calls).1.messages = (replay Shelf.step ⟨order, []⟩ calls).1.messages.map some ∧
      ((run order calls).1.front.value = none ↔ (run order calls).1.isEmpty = true) ∧
      (∀ m, (run order calls).1.front.value = some m →
        (run order calls).1.messages = match (run order calls).1.order with
          | .fifo => some m :: (run order calls).1.pop.value.messages
          | .lifo => (run order calls).1.pop.value.messages ++ [some m]) ∧
      ((run order calls).1.isEmpty = true → (run order calls).1.pop = ⟨(run order calls).1, []⟩) ∧
      (order = .fifo → (∀ order, .reopen order ∈ calls → order = .fifo) →
        (run order calls).2 = (replay Memory.step Memory.empty calls).2) := by
  obtain ⟨hanswers, l, hend⟩ := (refines_empty order).replay hfit
  refine ⟨hanswers, hend.messages_eq, hend.front_eq_none_iff, fun m => hend.messages_pop,
    hend.pop_of_isEmpty, ?_⟩
  rintro rfl hfifo
  exact hanswers.trans (Memory.replay_eq [] hfifo).symm

theorem Disk.run_like_list_reopened :
    (openAt Directory.empty .lifo).value.Fits
        [.push ⟨"a", [1]⟩, .push ⟨"b", [2]⟩, .pop, .reopen .fifo, .push ⟨"c", [3]⟩, .front] ∧
      (run .lifo
        [.push ⟨"a", [1]⟩, .push ⟨"b", [2]⟩, .pop, .reopen .fifo, .push ⟨"c", [3]⟩, .front]).2 =
        [.pushed true, .pushed true, .done, .done, .pushed true, .front (some ⟨"a", [1]⟩)] := by
  have hnext : (openAt Directory.empty .lifo).value.next = 0 := by
    show ((Entry.ofDirectory Directory.empty).getLast?.map _).getD 0 = 0
    rw [show Entry.ofDirectory Directory.empty = [] from List.mergeSort_nil]
    rfl
  have hfits : (openAt Directory.empty .lifo).value.Fits
      [.push ⟨"a", [1]⟩, .push ⟨"b", [2]⟩, .pop, .reopen .fifo, .push ⟨"c", [3]⟩, .front] := by
    apply (refines_empty .lifo).fits
    rw [hnext]
    decide
  refine ⟨hfits, ?_⟩
  rw [(run_like_list _ _ hfits).1]
  decide

end DeviceLink.Store
