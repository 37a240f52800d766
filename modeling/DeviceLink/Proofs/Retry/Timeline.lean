import DeviceLink.Proofs.Retry.Invariant
import DeviceLink.Retry.Session

/-! Sessions as histories: whatever is asked of a session, its handler sees events one by one, each
at its moment, and the timers run out when they are due. -/
namespace DeviceLink.Retry

/-- What a handler does over a history, with the moments. -/
def Handler.timeline {κ : Type} (h : Handler κ) : List (Nat × Event κ) → List (Nat × Effect κ)
  | [] => []
  | (n, e) :: rest => (h.step e).effects.map (n, ·) ++ timeline (h.step e).state rest

namespace Handler

variable {κ : Type}

theorem timeline_append (h : Handler κ) (xs ys : List (Nat × Event κ)) :
    h.timeline (xs ++ ys) =
      h.timeline xs ++ (h.run (xs.map Prod.snd)).state.timeline ys := by
  induction xs generalizing h with
  | nil => rfl
  | cons x xs ih =>
    obtain ⟨n, e⟩ := x
    simp [timeline, ih]

theorem timeline_map_snd (h : Handler κ) (l : List (Nat × Event κ)) :
    (h.timeline l).map Prod.snd = (h.run (l.map Prod.snd)).effects := by
  induction l generalizing h with
  | nil => rfl
  | cons x l ih =>
    obtain ⟨n, e⟩ := x
    simp [timeline, ih, Function.comp_def]

end Handler

theorem Timer.earliest?_eq_none {ts : List Timer} (h : earliest? ts = none) : ts = [] := by
  cases ts with
  | nil => rfl
  | cons t ts =>
    simp only [earliest?] at h
    split at h
    · cases h
    · split_ifs at h

/-- The earliest timer is due no later than any, and the others are left. -/
theorem Timer.earliest?_spec {ts others : List Timer} {t : Timer}
    (h : earliest? ts = some (t, others)) :
    ts.Perm (t :: others) ∧ ∀ u ∈ ts, t.due ≤ u.due := by
  induction ts generalizing t others with
  | nil => cases h
  | cons v ts ih =>
    simp only [earliest?] at h
    cases hr : earliest? ts with
    | none =>
      simp only [hr] at h
      cases h
      rw [earliest?_eq_none hr]
      exact ⟨List.Perm.refl _, by simp⟩
    | some x =>
      obtain ⟨w, rest⟩ := x
      obtain ⟨hperm, hmin⟩ := ih hr
      simp only [hr] at h
      split_ifs at h with hle
      · cases h
        refine ⟨List.Perm.refl _, fun u hu => ?_⟩
        rcases List.mem_cons.mp hu with rfl | hu
        · exact Nat.le_refl _
        · exact Nat.le_trans hle (hmin u hu)
      · cases h
        refine ⟨(hperm.cons v).trans (List.Perm.swap _ _ _), fun u hu => ?_⟩
        rcases List.mem_cons.mp hu with rfl | hu
        · exact Nat.le_of_not_le hle
        · exact hmin u hu

inductive Command
  | ask (timersRun : Bool) (asker : Asker) (request : Request)
  | receive (message : Envelope)
  | sleep (milliseconds : Nat)
  | close
  deriving DecidableEq, Repr

namespace Session

def perform (s : Session) : Command → Turn Session Asker
  | .ask timersRun asker r =>
    match s.ask? timersRun asker r with
    | .ok t => t
    | .error _ => ⟨s, [], []⟩
  | .receive m => (s.receive? m).getD ⟨s, [], []⟩
  | .sleep ms => s.sleep ms
  | .close => ⟨s.close, [], []⟩

def performAll (s : Session) : List Command → Turn Session Asker
  | [] => ⟨s, [], []⟩
  | c :: rest => andThen (s.perform c) fun s => s.performAll rest

/-- The requests that those who are told an outcome make at once. -/
def followUps : List (Effect Asker) → List (Event Asker)
  | [] => []
  | .send _ _ :: rest => followUps rest
  | .call _ asker _ :: rest =>
    match asker.next with
    | [] => followUps rest
    | (name, r) :: next => .add ⟨name, next⟩ r :: followUps rest

/-- An event of the handler and what follows from it, at one moment. -/
def occurrence (h : Handler Asker) (moment : Nat) (e : Event Asker) : List (Nat × Event Asker) :=
  (e :: followUps (h.step e).effects).map (moment, ·)

/-- What happens to the handler while timers run out. -/
def historyTo (moment : Nat) : Nat → Session → List (Nat × Event Asker)
  | 0, _ => []
  | bound + 1, s =>
    match Timer.earliest? s.timers with
    | none => []
    | some (t, others) =>
      if moment < t.due then []
      else occurrence s.handler t.due (.expire t.id t.channel) ++
        historyTo moment bound (s.tick t others).state

def historyOf (s : Session) : Command → List (Nat × Event Asker)
  | .ask timersRun asker r => if timersRun then [(s.now, .add asker r)] else []
  | .receive m => occurrence s.handler s.now (.receive m)
  | .sleep ms => historyTo (s.now + ms) s.work s
  | .close => [(s.now, .close)]

def history (s : Session) : List Command → List (Nat × Event Asker)
  | [] => []
  | c :: rest => s.historyOf c ++ history (s.perform c).state rest

/-- One event of the handler of a session, at its moment. -/
inductive Step : Session → Nat × Event Asker → Session → Prop
  | add (s : Session) (asker : Asker) (r : Request) :
      Step s (s.now, .add asker r) (s.ask asker r).state
  | receive (s : Session) (m : Envelope) :
      Step s (s.now, .receive m) { s with handler := (s.handler.step (.receive m)).state }
  | close (s : Session) : Step s (s.now, .close) s.close
  | expire {s : Session} {t : Timer} {others : List Timer} :
      Timer.earliest? s.timers = some (t, others) →
      Step s (t.due, .expire t.id t.channel)
        ⟨t.due, (s.handler.step (.expire t.id t.channel)).state,
          others ++ rearmed (s.handler.step (.expire t.id t.channel)).state t⟩

/-- Events one after another; in between, time passes while no timer is due. -/
inductive Lapse : Session → List (Nat × Event Asker) → Session → Prop
  | done (s : Session) : Lapse s [] s
  | step {s s' u : Session} {x : Nat × Event Asker} {l : List (Nat × Event Asker)} :
      Step s x s' → Lapse s' l u → Lapse s (x :: l) u
  | wait {s u : Session} {moment : Nat} {l : List (Nat × Event Asker)} :
      s.now ≤ moment → (∀ t ∈ s.timers, moment < t.due) →
      Lapse { s with now := moment } l u → Lapse s l u

theorem Step.handler {s s' : Session} {x : Nat × Event Asker} (h : Step s x s') :
    s'.handler = (s.handler.step x.2).state := by
  cases h <;> rfl

theorem Lapse.handler {s u : Session} {l : List (Nat × Event Asker)} (h : Lapse s l u) :
    u.handler = (s.handler.run (l.map Prod.snd)).state := by
  induction h with
  | done s => rfl
  | step hx _ ih =>
    rw [ih, hx.handler]
    rfl
  | wait _ _ _ ih => exact ih

theorem Lapse.append {s m u : Session} {l l' : List (Nat × Event Asker)} (h : Lapse s l m)
    (h' : Lapse m l' u) : Lapse s (l ++ l') u := by
  induction h with
  | done s => exact h'
  | step hx _ ih => exact .step hx (ih h')
  | wait hle hdue _ ih => exact .wait hle hdue (ih h')

theorem Lapse.split {s u : Session} {l l' : List (Nat × Event Asker)} (h : Lapse s (l ++ l') u) :
    ∃ m, Lapse s l m ∧ Lapse m l' u := by
  generalize heq : l ++ l' = k at h
  induction h generalizing l with
  | done s =>
    obtain ⟨rfl, rfl⟩ := List.append_eq_nil_iff.mp heq
    exact ⟨s, .done s, .done s⟩
  | @step s s' u x k hx hk ih =>
    cases l with
    | nil =>
      rw [List.nil_append] at heq
      exact ⟨s, .done s, heq ▸ .step hx hk⟩
    | cons y l =>
      obtain ⟨rfl, hr⟩ := List.cons.inj heq
      obtain ⟨m, hm, hm'⟩ := ih hr
      exact ⟨m, .step hx hm, hm'⟩
  | wait hle hdue _ ih =>
    obtain ⟨m, hm, hm'⟩ := ih heq
    exact ⟨m, .wait hle hdue hm, hm'⟩

theorem Lapse.cons_inv {s u : Session} {x : Nat × Event Asker} {l : List (Nat × Event Asker)}
    (h : Lapse s (x :: l) u) : ∃ m m', Lapse s [] m ∧ Step m x m' ∧ Lapse m' l u := by
  generalize heq : x :: l = k at h
  induction h with
  | done s => cases heq
  | @step s s' u y k hy hk _ =>
    cases heq
    exact ⟨s, s', .done s, hy, hk⟩
  | wait hle hdue _ ih =>
    obtain ⟨m, m', hm, hx, hl⟩ := ih heq
    exact ⟨m, m', .wait hle hdue hm, hx, hl⟩

/-- A turn of a session that goes through a history. -/
def Follows (s : Session) (l : List (Nat × Event Asker)) (t : Turn Session Asker) : Prop :=
  Lapse s l t.state ∧ t.effects = (s.handler.run (l.map Prod.snd)).effects

theorem Follows.andThen {s : Session} {l l' : List (Nat × Event Asker)} {t : Turn Session Asker}
    {next : Session → Turn Session Asker} (h : Follows s l t)
    (h' : Follows t.state l' (next t.state)) : Follows s (l ++ l') (andThen t next) := by
  refine ⟨h.1.append h'.1, ?_⟩
  rw [List.map_append, Handler.run_append_effects, ← h.1.handler, ← h.2, ← h'.2]
  rfl

theorem follows_self (s : Session) : Follows s [] ⟨s, [], []⟩ := ⟨.done s, rfl⟩

theorem follows_ask (s : Session) (asker : Asker) (r : Request) :
    Follows s [(s.now, .add asker r)] (s.ask asker r) :=
  ⟨.step (.add s asker r) (.done _), rfl⟩

private theorem follows_followUp (s : Session) (effects : List (Effect Asker)) :
    Follows s ((followUps effects).map (s.now, ·)) (s.followUp effects) := by
  induction effects generalizing s with
  | nil => exact follows_self s
  | cons x rest ih =>
    cases x with
    | send id m => exact ih s
    | call id asker response =>
      simp only [followUp, followUps]
      cases asker.next with
      | nil => exact ih s
      | cons nr next => exact (follows_ask s ⟨nr.1, next⟩ nr.2).andThen (ih _)

theorem Follows.settled {s : Session} {n : Nat} {e : Event Asker} {t : Turn Session Asker}
    (h : Follows s [(n, e)] t) (hn : t.state.now = n) :
    Follows s (occurrence s.handler n e) (settle t) := by
  have heff : t.effects = (s.handler.step e).effects := by
    rw [h.2]
    simp
  have hafter : Follows s ([(n, e)] ++ (followUps t.effects).map (t.state.now, ·)) (settle t) :=
    h.andThen (follows_followUp t.state t.effects)
  rwa [hn, heff] at hafter

theorem follows_receive (s : Session) (m : Envelope) :
    Follows s (occurrence s.handler s.now (.receive m)) ((s.receive? m).getD ⟨s, [], []⟩) := by
  cases hp : s.handler.pending? m.channel with
  | none =>
    have hstep := Handler.step_receive_of_none hp
    have hnone : s.receive? m = none := by simp [receive?, Handler.receive?, hp]
    rw [hnone, occurrence, hstep]
    refine ⟨?_, by simp [followUps, hstep]⟩
    have hs := Step.receive s m
    rw [hstep] at hs
    exact .step hs (.done s)
  | some p =>
    have hsome : s.receive? m = some (settle ⟨{ s with
        handler := (s.handler.step (.receive m)).state },
        (s.handler.step (.receive m)).effects, (s.handler.step (.receive m)).log⟩) := by
      simp [receive?, Handler.receive?, Handler.step, hp]
    rw [hsome]
    exact Follows.settled ⟨.step (.receive s m) (.done _), by simp⟩ rfl

theorem follows_tick {s : Session} {t : Timer} {others : List Timer}
    (h : Timer.earliest? s.timers = some (t, others)) :
    Follows s (occurrence s.handler t.due (.expire t.id t.channel)) (s.tick t others) :=
  Follows.settled ⟨.step (.expire h) (.done _), by simp [Handler.step]⟩ rfl

end Session

/-! The bound of a sleep is never reached: each timer that runs out uses up some of the work. -/

/-- The most that can still happen for one request and those that follow it. -/
def Pending.weight (p : Pending Asker) : Nat :=
  p.request.config.maxRetries.toNat - p.retries + 1 + Request.workAhead p.asker.next

theorem Pending.work_cons (c : String) (p : Pending Asker) (l : List (String × Pending Asker)) :
    work ((c, p) :: l) = p.weight + work l := rfl

theorem Pending.work_perm {l l' : List (String × Pending Asker)} (h : l.Perm l') :
    work l = work l' := by
  induction h with
  | nil => rfl
  | cons x _ ih => rw [work_cons, work_cons, ih]
  | swap x y l =>
    rw [work_cons, work_cons, work_cons, work_cons]
    omega
  | trans _ _ ih ih' => exact ih.trans ih'

theorem Pending.work_erase_le (c : String) (l : List (String × Pending Asker)) :
    work (Ascending.erase c l) ≤ work l := by
  induction l with
  | nil => exact Nat.le_refl _
  | cons x l ih =>
    unfold Ascending.erase at ih ⊢
    rw [List.filter_cons, work_cons]
    split_ifs
    · rw [work_cons]
      omega
    · omega

theorem Pending.work_insert {l : List (String × Pending Asker)} (h : Ascending.Sorted l)
    (c : String) (p : Pending Asker) :
    work (Ascending.insert c p l) = p.weight + work (Ascending.erase c l) :=
  (work_perm (h.insert_perm_erase c p)).trans (work_cons c p _)

theorem Handler.Sound.work_eq {h : Handler Asker} (hs : h.Sound) {c : String} {p : Pending Asker}
    (hp : h.pending? c = some p) :
    Pending.work h.pending = p.weight + Pending.work (Ascending.erase c h.pending) :=
  (Pending.work_perm (Ascending.perm_cons_erase hs.sorted.nodup hp)).trans (Pending.work_cons c p _)

namespace Session

private theorem work_ask_le {s : Session} (hs : s.handler.Sound) (asker : Asker) (r : Request) :
    (s.ask asker r).state.work ≤
      s.work + (r.config.maxRetries.toNat + 1 + Request.workAhead asker.next) + 1 := by
  have hinsert := Pending.work_insert hs.sorted r.responseChannel ⟨s.handler.nextId, 0, r, asker⟩
  have herase := Pending.work_erase_le r.responseChannel s.handler.pending
  simp only [Pending.weight, Nat.sub_zero] at hinsert
  simp only [work, ask, Handler.add, hinsert, List.length_append, List.length_singleton]
  omega

/-- Who is told an outcome has no more work than was counted ahead, but for one timer. -/
theorem work_followUp_call_le {s : Session} (hs : s.handler.Sound) (id : Nat) (asker : Asker)
    (response : Option Envelope) :
    (s.followUp [.call id asker response]).state.work ≤
      s.work + Request.workAhead asker.next + 1 := by
  simp only [followUp]
  cases asker.next with
  | nil => exact Nat.le_trans (Nat.le_add_right _ _) (Nat.le_succ _)
  | cons nr next => exact work_ask_le hs ⟨nr.1, next⟩ nr.2

theorem rearmed_of_waiting {h : Handler Asker} {t : Timer} {p : Pending Asker}
    (hp : h.pending? t.channel = some p) (hid : p.id = t.id) :
    rearmed h t = [{ t with due := t.due + p.request.config.interval.toNat }] := by
  simp only [rearmed, Handler.filter_of_waiting hp hid]

theorem rearmed_of_stale {h : Handler Asker} {t : Timer}
    (hp : ∀ p, h.pending? t.channel = some p → p.id ≠ t.id) : rearmed h t = [] := by
  simp only [rearmed, Handler.filter_of_stale hp]

theorem work_tick_of_resend {s : Session} (hs : s.handler.Sound) {t : Timer}
    {others : List Timer} {p : Pending Asker} (hp : s.handler.pending? t.channel = some p)
    (hid : p.id = t.id) (hr : p.retries < p.request.config.maxRetries.toNat)
    (hlen : s.timers.length = others.length + 1) : (s.tick t others).state.work < s.work := by
  have hexpire : s.handler.expire t.id t.channel = s.handler.repeatOrGiveUp p := by
    rw [← hid]
    exact Handler.step_expire_of_waiting hp
  have hk := hs.keyed hp
  have hwork := hs.work_eq hp
  obtain ⟨heff, hstate⟩ := s.handler.repeatOrGiveUp_resend hr
  have hinsert := Pending.work_insert hs.sorted t.channel { p with retries := p.retries + 1 }
  have hp' : (s.handler.repeatOrGiveUp p).state.pending? t.channel =
      some { p with retries := p.retries + 1 } := by
    simp [hstate, Handler.pending?, hk]
  simp only [Pending.weight] at hinsert hwork
  simp only [tick, hexpire]
  rw [heff, rearmed_of_waiting hp' hid, hstate, hk]
  simp only [settle, andThen, followUp, work, List.length_append, List.length_singleton, hinsert]
  omega

theorem work_tick_of_giveUp {s : Session} (hs : s.handler.Sound) {t : Timer}
    {others : List Timer} {p : Pending Asker} (hp : s.handler.pending? t.channel = some p)
    (hid : p.id = t.id) (hr : ¬ p.retries < p.request.config.maxRetries.toNat)
    (hlen : s.timers.length = others.length + 1) : (s.tick t others).state.work < s.work := by
  have hexpire : s.handler.expire t.id t.channel = s.handler.repeatOrGiveUp p := by
    rw [← hid]
    exact Handler.step_expire_of_waiting hp
  have hk := hs.keyed hp
  have hwork := hs.work_eq hp
  obtain ⟨heff, hstate⟩ := s.handler.repeatOrGiveUp_giveUp hr
  have hp' : (s.handler.repeatOrGiveUp p).state.pending? t.channel = none := by
    simp [hstate, Handler.pending?, hk]
  have hsound : (s.handler.repeatOrGiveUp p).state.Sound := by
    rw [← hexpire]
    exact hs.step (.expire t.id t.channel)
  -- Who is told that no answer came may ask once more.
  have hfollow := work_followUp_call_le
    (s := ⟨t.due, (s.handler.repeatOrGiveUp p).state, others⟩) hsound p.id p.asker none
  simp only [Pending.weight] at hwork
  simp only [tick, hexpire]
  rw [heff, rearmed_of_stale (by simp [hp']), List.append_nil]
  simp only [work, hstate, hk] at hfollow hwork ⊢
  simp only [settle, andThen]
  omega

private theorem work_tick_of_stale {s : Session} {t : Timer} {others : List Timer}
    (hstale : ∀ p, s.handler.pending? t.channel = some p → p.id ≠ t.id)
    (hlen : s.timers.length = others.length + 1) : (s.tick t others).state.work < s.work := by
  have hexpire : s.handler.expire t.id t.channel = ⟨s.handler, [], []⟩ :=
    Handler.step_expire_of_stale hstale
  simp only [tick, hexpire, rearmed_of_stale hstale, settle, andThen, followUp, work,
    List.append_nil]
  omega

/-- A timer that runs out leaves less to happen. -/
theorem work_tick_lt {s : Session} (hs : s.handler.Sound) {t : Timer} {others : List Timer}
    (ht : Timer.earliest? s.timers = some (t, others)) : (s.tick t others).state.work < s.work := by
  have hlen : s.timers.length = others.length + 1 := (Timer.earliest?_spec ht).1.length_eq
  by_cases hw : ∃ p, s.handler.pending? t.channel = some p ∧ p.id = t.id
  · obtain ⟨p, hp, hid⟩ := hw
    by_cases hr : p.retries < p.request.config.maxRetries.toNat
    · exact work_tick_of_resend hs hp hid hr hlen
    · exact work_tick_of_giveUp hs hp hid hr hlen
  · exact work_tick_of_stale (fun p hp hid => hw ⟨p, hp, hid⟩) hlen

theorem Lapse.sound {s u : Session} {l : List (Nat × Event Asker)} (h : Lapse s l u)
    (hs : s.handler.Sound) : u.handler.Sound := by
  rw [h.handler]
  exact hs.run _

private theorem tick_now (s : Session) (t : Timer) (others : List Timer) :
    (s.tick t others).state.now = t.due := by
  have hask : ∀ (effects : List (Effect Asker)) (s : Session),
      (s.followUp effects).state.now = s.now := by
    intro effects
    induction effects with
    | nil => exact fun s => rfl
    | cons x rest ih =>
      intro s
      cases x with
      | send id m => exact ih s
      | call id asker response =>
        simp only [followUp]
        cases asker.next with
        | nil => exact ih s
        | cons nr next => exact ih _
  exact hask _ _

/-- Timers run out up to a moment, every one that is due by then and no other. -/
theorem follows_runTo {moment bound : Nat} {s : Session} (hs : s.handler.Sound)
    (hnow : s.now ≤ moment) (hwork : s.work ≤ bound) :
    Follows s (historyTo moment bound s) (runTo moment bound s) ∧
      (runTo moment bound s).state.now = moment ∧
      ∀ t ∈ (runTo moment bound s).state.timers, moment < t.due := by
  have hwait : ∀ {s : Session}, s.now ≤ moment → (∀ t ∈ s.timers, moment < t.due) →
      Follows s [] ⟨{ s with now := moment }, [], []⟩ :=
    fun hnow hdue => ⟨.wait hnow hdue (.done _), rfl⟩
  -- The bound lasts, because every timer that runs out leaves less work than there was.
  induction bound generalizing s with
  | zero =>
    have hnil : s.timers = [] := by
      apply List.eq_nil_of_length_eq_zero
      unfold work at hwork
      omega
    have hdue : ∀ t ∈ s.timers, moment < t.due := by simp [hnil]
    exact ⟨hwait hnow hdue, rfl, hdue⟩
  | succ bound ih =>
    unfold historyTo runTo
    cases ht : Timer.earliest? s.timers with
    | none =>
      have hdue : ∀ t ∈ s.timers, moment < t.due := by simp [Timer.earliest?_eq_none ht]
      exact ⟨hwait hnow hdue, rfl, hdue⟩
    | some x =>
      obtain ⟨t, others⟩ := x
      obtain ⟨-, hmin⟩ := Timer.earliest?_spec ht
      by_cases hdue : moment < t.due
      · have hall : ∀ u ∈ s.timers, moment < u.due :=
          fun u hu => Nat.lt_of_lt_of_le hdue (hmin u hu)
        simp only [if_pos hdue]
        exact ⟨hwait hnow hall, trivial, hall⟩
      · simp only [if_neg hdue]
        have htick := follows_tick ht
        have hwork' : (s.tick t others).state.work ≤ bound := by
          have hlt := work_tick_lt hs ht
          omega
        have hnow' : (s.tick t others).state.now ≤ moment := by
          rw [tick_now]
          omega
        obtain ⟨hrest, hend, hleft⟩ := ih (htick.1.sound hs) hnow' hwork'
        exact ⟨htick.andThen hrest, hend, hleft⟩

theorem follows_perform {s : Session} (hs : s.handler.Sound) (c : Command) :
    Follows s (historyOf s c) (s.perform c) := by
  cases c with
  | ask timersRun asker r =>
    cases timersRun with
    | true => exact follows_ask s asker r
    | false => exact follows_self s
  | receive m => exact follows_receive s m
  | sleep ms => exact (follows_runTo hs (Nat.le_add_right _ _) (Nat.le_refl _)).1
  | close => exact ⟨.step (.close s) (.done _), rfl⟩

/-- A session goes through its history, and what it does is what its handler does. -/
theorem follows_performAll {s : Session} (hs : s.handler.Sound) (commands : List Command) :
    Follows s (history s commands) (s.performAll commands) := by
  induction commands generalizing s with
  | nil => exact follows_self s
  | cons c rest ih =>
    have hc := follows_perform hs c
    exact hc.andThen (ih (hc.1.sound hs))

end Session
end DeviceLink.Retry
