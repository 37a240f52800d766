import DeviceLink.Proofs.Retry.Invariant
import Mathlib.Data.Set.Card

/-! Every request of a run meets exactly one fate, and its asker is told at most once. -/
namespace DeviceLink.Retry

variable {κ : Type}

def Effect.call? : Effect κ → Option (κ × Option Envelope)
  | .send _ _ => none
  | .call _ asker response => some (asker, response)

def callsOf (id : Nat) (effects : List (Effect κ)) : List (κ × Option Envelope) :=
  (effectsOf id effects).filterMap Effect.call?

def Fate.calls (asker : κ) : Fate → List (κ × Option Envelope)
  | .answered m => [(asker, some m)]
  | .exhausted => [(asker, none)]
  | .pending | .replaced | .dropped => []

theorem Fate.calls_effects (p : Pending κ) (f : Fate) :
    (f.effects p).filterMap Effect.call? = f.calls p.asker := by
  cases f <;> rfl

theorem Fate.calls_length (asker : κ) (f : Fate) : (f.calls asker).length ≤ 1 := by
  cases f <;> simp [calls]

/-- A request of a run, with the events before its addition and those after. -/
structure Addition (κ : Type) where
  before : List (Event κ)
  asker : κ
  request : Request
  after : List (Event κ)

namespace Addition

def events (a : Addition κ) : List (Event κ) := a.before ++ .add a.asker a.request :: a.after

def id (a : Addition κ) : Nat := (Handler.empty.run a.before).state.nextId

def handlerAfter (a : Addition κ) (later : List (Event κ)) : Handler κ :=
  (Handler.empty.run (a.before ++ .add a.asker a.request :: later)).state

/-- The entry of the request while it waits, sent again so many times. -/
def entry (a : Addition κ) (retries : Nat) : Pending κ := ⟨a.id, retries, a.request, a.asker⟩

/-- After some of the events the request waits under its response channel. -/
def Waits (a : Addition κ) (later : List (Event κ)) (retries : Nat) : Prop :=
  (a.handlerAfter later).isPending a.request.responseChannel = true ∧
    (a.handlerAfter later).pending? a.request.responseChannel = some (a.entry retries)

def calls (a : Addition κ) : List (κ × Option Envelope) :=
  callsOf a.id (Handler.empty.run a.events).effects

/-- The fates of a request, each by the event that brings it while the request waits. -/
inductive Meets (a : Addition κ) : Fate → Prop
  | pending {n : Nat} : a.Waits a.after n → Meets a .pending
  /-- The first message on the response channel. -/
  | answered {mid rest : List (Event κ)} {m : Envelope} {n : Nat} :
      a.after = mid ++ .receive m :: rest → a.Waits mid n →
      m.channel = a.request.responseChannel →
      (∀ m', .receive m' ∈ mid → m'.channel ≠ a.request.responseChannel) →
      Meets a (.answered m)
  /-- The timer runs out when all repetitions are made. -/
  | exhausted {mid rest : List (Event κ)} :
      a.after = mid ++ .expire a.id a.request.responseChannel :: rest →
      a.Waits mid a.request.config.maxRetries.toNat →
      Meets a .exhausted
  /-- Another request on the response channel. -/
  | replaced {mid rest : List (Event κ)} {asker : κ} {r : Request} {n : Nat} :
      a.after = mid ++ .add asker r :: rest → a.Waits mid n →
      r.responseChannel = a.request.responseChannel →
      Meets a .replaced
  | dropped {mid rest : List (Event κ)} {n : Nat} :
      a.after = mid ++ .close :: rest → a.Waits mid n → Meets a .dropped

end Addition

namespace Pending

/-- The fate of a request that waits, read off the events. -/
def fate (p : Pending κ) (events : List (Event κ)) : Fate :=
  match p.after events with
  | .ok _ => .pending
  | .error f => f

theorem after_ok {p p' : Pending κ} {events : List (Event κ)} (h : p.after events = .ok p') :
    p' = { p with retries := p'.retries } := by
  induction events generalizing p with
  | nil =>
    cases h
    rfl
  | cons e rest ih =>
    rw [after_cons] at h
    cases hn : p.next e with
    | ok q =>
      rw [hn] at h
      have hq := ih h
      rw [hq, next_id hn, next_request hn, next_asker hn]
    | error f =>
      rw [hn] at h
      cases h

/-- A fate comes with one event, up to which the request waited. -/
theorem after_eq_error_iff {p : Pending κ} {events : List (Event κ)} {f : Fate} :
    p.after events = .error f ↔ ∃ mid e rest p', events = mid ++ e :: rest ∧
      p.after mid = .ok p' ∧ p'.next e = .error f := by
  constructor
  · intro h
    induction events generalizing p with
    | nil => cases h
    | cons e rest ih =>
      rw [after_cons] at h
      cases hn : p.next e with
      | ok q =>
        rw [hn] at h
        obtain ⟨mid, e', rest', p', rfl, hmid, he'⟩ := ih h
        refine ⟨e :: mid, e', rest', p', rfl, ?_, he'⟩
        rw [after_cons, hn]
        exact hmid
      | error g =>
        rw [hn] at h
        cases h
        exact ⟨[], e, rest, p, rfl, rfl, hn⟩
  · rintro ⟨mid, e, rest, p', rfl, hmid, he⟩
    rw [after_append, hmid]
    simp only [Except.bind, after_cons, he]

theorem channel_ne_of_after_ok {p p' : Pending κ} {events : List (Event κ)}
    (h : p.after events = .ok p') {m : Envelope} (hm : .receive m ∈ events) :
    m.channel ≠ p.request.responseChannel := by
  intro hc
  obtain ⟨xs, ys, rfl⟩ := List.append_of_mem hm
  rw [after_append] at h
  cases hx : p.after xs with
  | ok q =>
    have hq : q.request = p.request := by rw [after_ok hx]
    rw [hx] at h
    simp only [Except.bind, after_cons, next_receive ((congrArg _ hq).trans hc.symm)] at h
    cases h
  | error f =>
    rw [hx] at h
    cases h

theorem story_calls (p : Pending κ) (events : List (Event κ)) :
    (p.story events).filterMap Effect.call? = (p.fate events).calls p.asker := by
  induction events generalizing p with
  | nil => rfl
  | cons e rest ih =>
    cases hn : p.next e with
    | ok p' =>
      have hacts : (p.acts e).filterMap Effect.call? = [] := by
        simp only [acts, hn]
        split_ifs <;> rfl
      have hfate : p.fate (e :: rest) = p'.fate rest := by
        simp only [fate, after_cons, hn, Except.bind]
      simp only [story, hn, List.filterMap_append, hacts, ih, hfate, next_asker hn, List.nil_append]
    | error f =>
      have hfate : p.fate (e :: rest) = f := by simp only [fate, after_cons, hn, Except.bind]
      simp only [story, hn, List.append_nil, hfate, acts, Fate.calls_effects]

end Pending

namespace Handler

private theorem Sound.effects_id_lt_step {h : Handler κ} (hs : Sound h) {e : Event κ} {x : Effect κ}
    (hx : x ∈ (h.step e).effects) : x.id < (h.step e).state.nextId := by
  by_cases hid : x.id < h.nextId
  · exact Nat.lt_of_lt_of_le hid (nextId_le_step h e)
  · have key : ∀ c, x ∉ (h.pending? c).elim [] fun p => p.acts e := by
      intro c hc
      cases hp : h.pending? c with
      | none => simp [hp] at hc
      | some p =>
        rw [hp, Option.elim_some] at hc
        exact hid (Pending.acts_id hc ▸ hs.fresh hp)
    cases e with
    | add asker r =>
      rw [step_add_effects, List.mem_singleton] at hx
      rw [hx]
      exact Nat.lt_succ_self _
    | receive m => exact absurd (hs.step_receive_effects m ▸ hx) (key _)
    | expire id c => exact absurd (hs.step_expire_effects id c ▸ hx) (key _)
    | close => simp at hx

/-- Nothing is done on behalf of a request that is still to come. -/
theorem Sound.effects_id_lt {h : Handler κ} (hs : Sound h) {events : List (Event κ)}
    {x : Effect κ} (hx : x ∈ (h.run events).effects) : x.id < (h.run events).state.nextId := by
  induction events generalizing h with
  | nil => simp at hx
  | cons e rest ih =>
    rw [run_cons_effects, List.mem_append] at hx
    rcases hx with hx | hx
    · exact Nat.lt_of_lt_of_le (hs.effects_id_lt_step hx) (nextId_le_run _ rest)
    · exact ih (hs.step e) hx

end Handler

namespace Addition

theorem sound_before (a : Addition κ) : (Handler.empty.run a.before).state.Sound :=
  Handler.sound_empty.run _

theorem handlerAfter_eq (a : Addition κ) (later : List (Event κ)) :
    a.handlerAfter later = (((Handler.empty.run a.before).state.step
      (.add a.asker a.request)).state.run later).state := by
  simp [handlerAfter]

theorem entry_added (a : Addition κ) :
    ((Handler.empty.run a.before).state.step (.add a.asker a.request)).state.pending?
      a.request.responseChannel = some (a.entry 0) := by
  rw [Handler.step_add_pending?, if_pos rfl]
  rfl

/-- A request waits as long as no event has brought its fate. -/
theorem waits_iff (a : Addition κ) (later : List (Event κ)) (n : Nat) :
    a.Waits later n ↔ (a.entry 0).after later = .ok (a.entry n) := by
  have hrun := ((a.sound_before.step _).waiting_run a.entry_added later).2
  rw [← a.handlerAfter_eq] at hrun
  constructor
  · rintro ⟨-, hp⟩
    cases ho : (a.entry 0).after later with
    | ok p' =>
      rw [ho] at hrun
      exact congrArg Except.ok (Option.some.inj (hrun.symm.trans hp))
    | error f =>
      rw [ho] at hrun
      exact absurd rfl (hrun.2 _ (a.entry n) hp)
  · intro ho
    rw [ho] at hrun
    exact ⟨by rw [Handler.isPending, hrun]; rfl, hrun⟩

theorem exists_waits {a : Addition κ} {later : List (Event κ)} {p : Pending κ}
    (h : (a.entry 0).after later = .ok p) : a.Waits later p.retries :=
  (a.waits_iff later _).mpr (h.trans (congrArg Except.ok (Pending.after_ok h)))

theorem fate_of_meets {a : Addition κ} {f : Fate} (h : a.Meets f) :
    (a.entry 0).fate a.after = f := by
  unfold Pending.fate
  cases h with
  | pending hw => rw [(a.waits_iff _ _).mp hw]
  | answered heq hw hc =>
    rw [heq, Pending.after_eq_error_iff.mpr ⟨_, _, _, _, rfl, (a.waits_iff _ _).mp hw,
      Pending.next_receive hc.symm⟩]
  | exhausted heq hw =>
    have hn : (a.entry a.request.config.maxRetries.toNat).next
        (.expire a.id a.request.responseChannel) = .error .exhausted := by
      simp [Pending.next, entry]
    rw [heq, Pending.after_eq_error_iff.mpr ⟨_, _, _, _, rfl, (a.waits_iff _ _).mp hw, hn⟩]
  | @replaced mid rest asker r n heq hw hc =>
    have hn : (a.entry n).next (.add asker r) = .error .replaced := if_pos hc
    rw [heq, Pending.after_eq_error_iff.mpr ⟨_, _, _, _, rfl, (a.waits_iff _ _).mp hw, hn⟩]
  | dropped heq hw =>
    rw [heq, Pending.after_eq_error_iff.mpr ⟨_, _, _, _, rfl, (a.waits_iff _ _).mp hw, rfl⟩]

/-- The event that ends the waiting says which fate it is. -/
theorem meets_of_next {a : Addition κ} {mid rest : List (Event κ)} {e : Event κ} {p : Pending κ}
    {f : Fate} (heq : a.after = mid ++ e :: rest) (hmid : (a.entry 0).after mid = .ok p)
    (hn : p.next e = .error f) : a.Meets f := by
  have hw := exists_waits hmid
  have hp := Pending.after_ok hmid
  have hid : p.id = a.id := by
    rw [hp]
    rfl
  have hr : p.request = a.request := by
    rw [hp]
    rfl
  rcases Pending.next_error_cases hn with
    ⟨asker, r, rfl, hc, rfl⟩ | ⟨m, rfl, hc, rfl⟩ | ⟨rfl, hlt, rfl⟩ | ⟨rfl, rfl⟩
  · exact .replaced heq hw (hc.trans (congrArg _ hr))
  · refine .answered heq hw (hc.trans (congrArg _ hr)) fun m' hm' => ?_
    exact Pending.channel_ne_of_after_ok hmid hm'
  · have hb := ((a.sound_before.step _).run mid).bounded
      (by rw [← a.handlerAfter_eq]; exact hw.2)
    have hmax : p.retries = a.request.config.maxRetries.toNat :=
      Nat.le_antisymm hb (hr ▸ hlt)
    rw [hid, hr] at heq
    exact .exhausted heq (hmax ▸ hw)
  · exact .dropped heq hw

theorem meets_iff (a : Addition κ) (f : Fate) : a.Meets f ↔ f = (a.entry 0).fate a.after := by
  refine ⟨fun h => (fate_of_meets h).symm, ?_⟩
  rintro rfl
  cases ho : (a.entry 0).after a.after with
  | ok p =>
    rw [Pending.fate, ho]
    exact .pending (exists_waits ho)
  | error f =>
    rw [Pending.fate, ho]
    obtain ⟨mid, e, rest, p, heq, hmid, hn⟩ := Pending.after_eq_error_iff.mp ho
    exact meets_of_next heq hmid hn

theorem effectsOf_before (a : Addition κ) :
    effectsOf a.id (Handler.empty.run a.before).effects = [] := by
  refine List.filter_eq_nil_iff.mpr fun x hx => ?_
  have hlt : x.id < a.id := Handler.sound_empty.effects_id_lt hx
  simpa using Nat.ne_of_lt hlt

theorem effectsOf_added (a : Addition κ) :
    effectsOf a.id ((Handler.empty.run a.before).state.step (.add a.asker a.request)).effects =
      [.send a.id a.request.message] := by
  rw [Handler.step_add_effects, effectsOf_singleton]
  exact if_pos rfl

/-- All that is done on behalf of a request: it is sent, and then its story. -/
theorem effectsOf_id (a : Addition κ) :
    effectsOf a.id (Handler.empty.run a.events).effects =
      .send a.id a.request.message :: (a.entry 0).story a.after := by
  have hstory := ((a.sound_before.step _).waiting_run a.entry_added a.after).1
  unfold events
  rw [Handler.run_append_effects, effectsOf_append, a.effectsOf_before, Handler.run_cons_effects,
    effectsOf_append, a.effectsOf_added, List.nil_append]
  exact congrArg (Effect.send a.id a.request.message :: ·) hstory

theorem calls_eq (a : Addition κ) : a.calls = ((a.entry 0).fate a.after).calls a.asker := by
  unfold calls callsOf
  rw [effectsOf_id, List.filterMap_cons]
  exact (a.entry 0).story_calls a.after

/-- In one run, an id belongs to one request. -/
theorem eq_of_id_eq {a b : Addition κ} (hev : a.events = b.events) (hid : a.id = b.id) :
    a = b := by
  have hlt : ∀ {a b : Addition κ} {e : Event κ} {l : List (Event κ)},
      b.before = a.before ++ e :: l → e :: l ++ .add b.asker b.request :: b.after =
        .add a.asker a.request :: a.after → a.id < b.id := by
    intro a b e l hb he
    cases (List.cons.inj he).1
    unfold id
    rw [hb, Handler.run_append_state, Handler.run_cons_state]
    have hle := Handler.nextId_le_run
      ((Handler.empty.run a.before).state.step (.add a.asker a.request)).state l
    rwa [Handler.step_add_nextId] at hle
  have hbefore : a.before = b.before := by
    rcases List.append_eq_append_iff.mp hev with ⟨l, hb, he⟩ | ⟨l, hb, he⟩
    · cases l with
      | nil => rw [hb, List.append_nil]
      | cons e l => exact absurd hid (Nat.ne_of_lt (hlt hb he.symm))
    · cases l with
      | nil => rw [hb, List.append_nil]
      | cons e l => exact absurd hid (Nat.ne_of_gt (hlt hb he.symm))
  obtain ⟨before, asker, r, after⟩ := a
  obtain ⟨before', asker', r', after'⟩ := b
  obtain rfl : before = before' := hbefore
  cases List.append_cancel_left hev
  rfl

private theorem exists_of_pending? {events : List (Event κ)} {c : String} {p : Pending κ}
    (hp : (Handler.empty.run events).state.pending? c = some p) :
    ∃ a : Addition κ, a.events = events ∧ p = a.entry p.retries := by
  induction events using List.reverseRecOn generalizing p with
  | nil => simp at hp
  | append_singleton l e ih =>
    rw [Handler.run_append_state, Handler.run_cons_state, Handler.run_nil_state] at hp
    rcases (Handler.sound_empty.run l).pending?_step_cases hp with
      ⟨asker, r, rfl, -, rfl⟩ | ⟨q, hq, hn⟩
    · exact ⟨⟨l, asker, r, []⟩, rfl, rfl⟩
    · obtain ⟨a, ha, hqa⟩ := ih hq
      refine ⟨{ a with after := a.after ++ [e] }, ?_, ?_⟩
      · rw [← ha]
        simp [events]
      · rw [(Pending.next_ok hn).1, hqa]
        rfl

/-- Every entry is that of a request that is pending at the end. -/
theorem exists_meets_pending {events : List (Event κ)} {c : String} {p : Pending κ}
    (hp : (Handler.empty.run events).state.pending? c = some p) :
    ∃ a : Addition κ, (a.events = events ∧ a.Meets .pending) ∧ a.request.responseChannel = c := by
  obtain ⟨a, ha, hpa⟩ := exists_of_pending? hp
  have hc : a.request.responseChannel = c := by
    have hk := (Handler.sound_empty.run events).keyed hp
    rwa [hpa] at hk
  have hstate : a.handlerAfter a.after = (Handler.empty.run events).state := by
    rw [← ha]
    rfl
  have hw : a.Waits a.after p.retries := by
    unfold Waits Handler.isPending
    rw [hstate, hc, hp, ← hpa]
    exact ⟨rfl, rfl⟩
  exact ⟨a, ⟨ha, .pending hw⟩, hc⟩

theorem exists_pending? {a : Addition κ} {events : List (Event κ)}
    (ha : a.events = events ∧ a.Meets .pending) :
    ∃ n, (Handler.empty.run events).state.pending? a.request.responseChannel =
      some (a.entry n) := by
  obtain ⟨rfl, hm⟩ := ha
  cases hm with
  | pending hw => exact ⟨_, hw.2⟩

/-- The requests that wait at the end are those counted. -/
theorem encard_pending (events : List (Event κ)) :
    {a : Addition κ | a.events = events ∧ a.Meets .pending}.encard =
      ((Handler.empty.run events).state.size : ℕ∞) := by
  let h := (Handler.empty.run events).state
  have hs : h.Sound := Handler.sound_empty.run events
  have hnodup : (h.pending.map Prod.fst).Nodup := hs.sorted.nodup
  -- The channels number the requests, since no two wait under the same.
  have hinj : Set.InjOn (fun a : Addition κ => a.request.responseChannel)
      {a : Addition κ | a.events = events ∧ a.Meets .pending} := by
    intro a ha b hb hc
    obtain ⟨n, hn⟩ := exists_pending? ha
    obtain ⟨m, hm⟩ := exists_pending? hb
    have hc : a.request.responseChannel = b.request.responseChannel := hc
    rw [hc, hm] at hn
    exact eq_of_id_eq (ha.1.trans hb.1.symm) (congrArg Pending.id (Option.some.inj hn)).symm
  have himage : (fun a : Addition κ => a.request.responseChannel) ''
      {a : Addition κ | a.events = events ∧ a.Meets .pending} =
      ((h.pending.map Prod.fst).toFinset : Set String) := by
    ext c
    simp only [Set.mem_image, List.coe_toFinset, Set.mem_ofPred_eq, List.mem_map]
    constructor
    · rintro ⟨a, ha, rfl⟩
      obtain ⟨n, hn⟩ := exists_pending? ha
      exact ⟨_, Ascending.mem_of_find? hn, rfl⟩
    · rintro ⟨⟨c', p⟩, hm, rfl⟩
      exact exists_meets_pending ((Ascending.find?_eq_some_iff hnodup).mpr hm)
  rw [← hinj.encard_image, himage, Set.encard_coe_eq_coe_finsetCard,
    List.toFinset_card_of_nodup hnodup, List.length_map]
  rfl

/-- The id of a request is the number of those before it. -/
theorem id_eq_length (a : Addition κ) : a.id = (requests a.before).length :=
  (Handler.nextId_run _ _).trans (Nat.zero_add _)

/-- Each request of a run has exactly one fate and its asker is told just what that fate asks for,
once at most; the handler counts the requests that are still pending. The first `2 ^ 64` requests
of a run have ids of 64 bits. -/
theorem exactly_one_fate (κ : Type) :
    (∀ a : Addition κ, (∃ f, (∀ g, a.Meets g ↔ g = f) ∧ a.calls = f.calls a.asker ∧
      a.calls.length ≤ 1) ∧ a.id = (requests a.before).length) ∧
    ∀ events : List (Event κ),
      {a : Addition κ | a.events = events ∧ a.Meets .pending}.encard =
        ((Handler.empty.run events).state.size : ℕ∞) := by
  refine ⟨fun a => ⟨⟨(a.entry 0).fate a.after, a.meets_iff, a.calls_eq, ?_⟩, a.id_eq_length⟩,
    encard_pending⟩
  rw [a.calls_eq]
  exact Fate.calls_length _ _

end Addition
end DeviceLink.Retry
