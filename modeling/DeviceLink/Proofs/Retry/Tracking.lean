import DeviceLink.Proofs.Retry.Timeline

/-! The timers of a session beside its handler: a request that waits has one timer of its own, due
when the request is to be sent next. -/
namespace DeviceLink.Retry

def effectsAt {κ : Type} (id : Nat) (l : List (Nat × Effect κ)) : List (Nat × Effect κ) :=
  l.filter fun x => x.2.id = id

section EffectsAt

variable {κ : Type}

@[simp] theorem effectsAt_nil (id : Nat) : effectsAt id ([] : List (Nat × Effect κ)) = [] := rfl

@[simp] theorem effectsAt_append (id : Nat) (xs ys : List (Nat × Effect κ)) :
    effectsAt id (xs ++ ys) = effectsAt id xs ++ effectsAt id ys := List.filter_append _ _

@[simp] theorem effectsAt_map (id n : Nat) (effects : List (Effect κ)) :
    effectsAt id (effects.map (n, ·)) = (effectsOf id effects).map (n, ·) := by
  unfold effectsAt effectsOf
  rw [List.filter_map]
  rfl

theorem Handler.effectsAt_timeline_eq_nil {h : Handler κ} {id : Nat} {l : List (Nat × Event κ)}
    (hnil : effectsOf id (h.run (l.map Prod.snd)).effects = []) :
    effectsAt id (h.timeline l) = [] := by
  rw [← timeline_map_snd] at hnil
  refine List.filter_eq_nil_iff.mpr fun x hx => ?_
  exact List.filter_eq_nil_iff.mp hnil x.2 (List.mem_map_of_mem hx)

end EffectsAt

/-- When a request that is made at a moment is sent for the k-th time again. -/
def Request.due (r : Request) (moment k : Nat) : Nat := moment + k * r.config.interval.toNat

theorem Request.due_succ (r : Request) (moment k : Nat) :
    r.due moment (k + 1) = r.due moment k + r.config.interval.toNat := by
  unfold due
  rw [Nat.succ_mul, Nat.add_assoc]

def Pending.sends {κ : Type} (p : Pending κ) (moment : Nat) : List (Nat × Effect κ) :=
  (List.range (p.retries + 1)).map fun k => (p.request.due moment k, .send p.id p.request.message)

theorem Pending.sends_resend {κ : Type} (p : Pending κ) (moment : Nat) :
    { p with retries := p.retries + 1 }.sends moment =
      p.sends moment ++
        [(p.request.due moment (p.retries + 1), .send p.id p.request.message)] := by
  unfold sends
  rw [List.range_succ, List.map_append]
  rfl

namespace Session

/-- What holds of a session at any moment: no timer is overdue, and each was started for a request
that has been added. -/
structure Ready (s : Session) : Prop where
  sound : s.handler.Sound
  timely : ∀ t ∈ s.timers, s.now ≤ t.due
  known : ∀ t ∈ s.timers, t.id < s.handler.nextId

theorem ready_empty : Ready empty where
  sound := Handler.sound_empty
  timely := by simp [empty]
  known := by simp [empty]

theorem mem_rearmed {h : Handler Asker} {t u : Timer} (hu : u ∈ rearmed h t) :
    u.id = t.id ∧ t.due ≤ u.due := by
  unfold rearmed at hu
  split at hu
  · rw [List.mem_singleton.mp hu]
    exact ⟨rfl, Nat.le_add_right _ _⟩
  · simp at hu

theorem Ready.step {s s' : Session} {x : Nat × Event Asker} (hr : Ready s) (h : Step s x s') :
    Ready s' := by
  have hsound : s'.handler.Sound := by
    rw [h.handler]
    exact hr.sound.step _
  have hid : s.handler.nextId ≤ s'.handler.nextId := by
    rw [h.handler]
    exact Handler.nextId_le_step _ _
  have hknown : ∀ t ∈ s.timers, t.id < s'.handler.nextId :=
    fun t ht => Nat.lt_of_lt_of_le (hr.known t ht) hid
  cases h with
  | add asker r =>
    refine ⟨hsound, fun t ht => ?_, fun t ht => ?_⟩
    · rcases List.mem_append.mp ht with ht | ht
      · exact hr.timely t ht
      · rw [List.mem_singleton.mp ht]
        exact Nat.le_add_right _ _
    · rcases List.mem_append.mp ht with ht | ht
      · exact hknown t ht
      · rw [List.mem_singleton.mp ht]
        exact Nat.lt_succ_self _
  | receive m => exact ⟨hsound, hr.timely, hknown⟩
  | close => exact ⟨hsound, hr.timely, hknown⟩
  | @expire t others ht =>
    obtain ⟨hperm, hmin⟩ := Timer.earliest?_spec ht
    have hothers : ∀ u ∈ others, u ∈ s.timers :=
      fun u hu => hperm.mem_iff.mpr (List.mem_cons_of_mem _ hu)
    refine ⟨hsound, fun u hu => ?_, fun u hu => ?_⟩
    · rcases List.mem_append.mp hu with hu | hu
      · exact hmin u (hothers u hu)
      · exact (mem_rearmed hu).2
    · rcases List.mem_append.mp hu with hu | hu
      · exact hknown u (hothers u hu)
      · rw [(mem_rearmed hu).1]
        exact hknown t (hperm.mem_iff.mpr List.mem_cons_self)

theorem Ready.wait {s : Session} {moment : Nat} (hr : Ready s)
    (hdue : ∀ t ∈ s.timers, moment < t.due) : Ready { s with now := moment } :=
  ⟨hr.sound, fun t ht => Nat.le_of_lt (hdue t ht), hr.known⟩

theorem Ready.lapse {s u : Session} {l : List (Nat × Event Asker)} (hr : Ready s)
    (h : Lapse s l u) : Ready u := by
  induction h with
  | done s => exact hr
  | step hx _ ih => exact ih (hr.step hx)
  | wait _ hdue _ ih => exact ih (hr.wait hdue)

/-- A request that was made at a moment and waits: one timer is its own, and it is due when the
request is to be sent next. -/
structure Tracks (s : Session) (moment : Nat) (p : Pending Asker) : Prop where
  waits : s.handler.pending? p.request.responseChannel = some p
  timer : s.timers.filter (fun t => t.id = p.id) =
    [⟨p.request.due moment (p.retries + 1), p.id, p.request.responseChannel⟩]
  since : p.request.due moment p.retries ≤ s.now

namespace Tracks

variable {s s' : Session} {moment : Nat} {p p' : Pending Asker} {x : Nat × Event Asker}

theorem mem_timers (ht : Tracks s moment p) :
    ⟨p.request.due moment (p.retries + 1), p.id, p.request.responseChannel⟩ ∈ s.timers := by
  apply List.mem_of_mem_filter
  rw [ht.timer]
  exact List.mem_singleton_self _

/-- No other timer is that of the request. -/
theorem timer_eq (ht : Tracks s moment p) {t : Timer} (hmem : t ∈ s.timers) (hid : t.id = p.id) :
    t = ⟨p.request.due moment (p.retries + 1), p.id, p.request.responseChannel⟩ := by
  have hf : t ∈ s.timers.filter (fun t => t.id = p.id) :=
    List.mem_filter.mpr ⟨hmem, decide_eq_true hid⟩
  rw [ht.timer] at hf
  exact List.mem_singleton.mp hf

/-- Nothing happens later than the request is due. -/
theorem step_le (ht : Tracks s moment p) (hr : Ready s) (h : Step s x s') :
    p.request.due moment p.retries ≤ x.1 ∧ x.1 ≤ p.request.due moment (p.retries + 1) := by
  have hown := ht.mem_timers
  have hnow := hr.timely _ hown
  cases h with
  | add asker r => exact ⟨ht.since, hnow⟩
  | receive m => exact ⟨ht.since, hnow⟩
  | close => exact ⟨ht.since, hnow⟩
  | expire he =>
    obtain ⟨hperm, hmin⟩ := Timer.earliest?_spec he
    refine ⟨Nat.le_trans ht.since (hr.timely _ ?_), hmin _ hown⟩
    exact hperm.mem_iff.mpr List.mem_cons_self

/-- Its timer runs out exactly when the request is due. -/
theorem step_expire (ht : Tracks s moment p) (h : Step s x s') {c : String}
    (he : x.2 = .expire p.id c) : x.1 = p.request.due moment (p.retries + 1) := by
  cases h with
  | add asker r => cases he
  | receive m => cases he
  | close => cases he
  | @expire t others hearliest =>
    injection he with hid hc
    have hmem : t ∈ s.timers :=
      (Timer.earliest?_spec hearliest).1.mem_iff.mpr List.mem_cons_self
    rw [ht.timer_eq hmem hid]

/-- An event that leaves the entry of the request as it is leaves its timer, too. -/
theorem stay (ht : Tracks s moment p) (hr : Ready s) (h : Step s x s') (hn : p.next x.2 = .ok p) :
    Tracks s' moment p := by
  have hwait := (hr.sound.waiting_step ht.waits x.2).2
  rw [hn, ← h.handler] at hwait
  cases h with
  | add asker r =>
    have hne : s.handler.nextId ≠ p.id := Nat.ne_of_gt (hr.sound.fresh ht.waits)
    refine ⟨hwait, ?_, ht.since⟩
    simp [ask, hne, ht.timer]
  | receive m => exact ⟨hwait, ht.timer, ht.since⟩
  | close => cases hn
  | @expire t others he =>
    obtain ⟨hperm, -⟩ := Timer.earliest?_spec he
    have hmem : t ∈ s.timers := hperm.mem_iff.mpr List.mem_cons_self
    -- Its own timer would have sent the request again, or ended its waiting.
    have hid : t.id ≠ p.id := by
      intro hid
      rw [ht.timer_eq hmem hid, Pending.next_expire rfl] at hn
      split_ifs at hn
      exact absurd (congrArg Pending.retries (Except.ok.inj hn)) (Nat.succ_ne_self _)
    have hothers := hperm.filter fun u => decide (u.id = p.id)
    rw [ht.timer, List.filter_cons_of_neg (by simpa using hid)] at hothers
    have hnone : (rearmed (s.handler.step (.expire t.id t.channel)).state t).filter
        (fun u => u.id = p.id) = [] := by
      refine List.filter_eq_nil_iff.mpr fun u hu => ?_
      rw [(mem_rearmed hu).1]
      simpa using hid
    refine ⟨hwait, ?_, Nat.le_trans ht.since (hr.timely t hmem)⟩
    rw [List.filter_append, hnone, List.append_nil]
    exact List.perm_singleton.mp hothers.symm

/-- When the request is sent again, its timer is started again from the moment it was due. -/
theorem resend (ht : Tracks s moment p) (hr : Ready s) (h : Step s x s')
    (he : x.2 = .expire p.id p.request.responseChannel)
    (hmax : p.retries < p.request.config.maxRetries.toNat) :
    Tracks s' moment { p with retries := p.retries + 1 } := by
  have hwait := (hr.sound.waiting_step ht.waits x.2).2
  rw [← h.handler, he, Pending.next_expire rfl, if_pos hmax] at hwait
  cases h with
  | add asker r => cases he
  | receive m => cases he
  | close => cases he
  | @expire t others hearliest =>
    obtain ⟨hperm, -⟩ := Timer.earliest?_spec hearliest
    injection he with hid hc
    have htimer := ht.timer_eq (hperm.mem_iff.mpr List.mem_cons_self) hid
    subst htimer
    have hothers := hperm.filter fun u => decide (u.id = p.id)
    rw [ht.timer, List.filter_cons_of_pos (by simp)] at hothers
    have hnone : others.filter (fun u => u.id = p.id) = [] :=
      (List.cons.inj (List.perm_singleton.mp hothers.symm)).2
    refine ⟨hwait, ?_, Nat.le_refl _⟩
    rw [List.filter_append, hnone, rearmed_of_waiting hwait rfl, List.nil_append,
      Request.due_succ _ _ (p.retries + 1)]
    simp

/-- An event that lets the request wait on sends it, if at all, when it is due. -/
theorem step (ht : Tracks s moment p) (hr : Ready s) (h : Step s x s')
    (hn : p.next x.2 = .ok p') :
    Tracks s' moment p' ∧
      p'.sends moment = p.sends moment ++ (p.acts x.2).map (x.1, ·) := by
  rcases Pending.next_ok_cases hn with rfl | ⟨he, hmax, rfl⟩
  · refine ⟨ht.stay hr h hn, ?_⟩
    rw [Pending.acts_of_ok_self hn, List.map_nil, List.append_nil]
  · refine ⟨ht.resend hr h he hmax, ?_⟩
    rw [Pending.sends_resend, ← ht.step_expire h he, Pending.acts, hn]
    simp

/-- As long as a request waits, it is sent at every moment at which it is due. -/
theorem lapse {u : Session} {l : List (Nat × Event Asker)} (ht : Tracks s moment p) (hr : Ready s)
    (h : Lapse s l u) (ho : p.after (l.map Prod.snd) = .ok p') :
    Tracks u moment p' ∧
      p'.sends moment = p.sends moment ++ effectsAt p.id (s.handler.timeline l) := by
  induction h generalizing p with
  | done s =>
    cases ho
    exact ⟨ht, (List.append_nil _).symm⟩
  | @step s s' u x l hx _ ih =>
    rw [List.map_cons, Pending.after_cons] at ho
    cases hn : p.next x.2 with
    | error f =>
      rw [hn] at ho
      cases ho
    | ok q =>
      rw [hn] at ho
      obtain ⟨hq, hsends⟩ := ht.step hr hx hn
      obtain ⟨hu, hrest⟩ := ih hq (hr.step hx) ho
      refine ⟨hu, ?_⟩
      obtain ⟨n, e⟩ := x
      have heff := (hr.sound.waiting_step ht.waits e).1
      rw [hrest, hsends, List.append_assoc, Handler.timeline, effectsAt_append, effectsAt_map, heff,
        Pending.next_id hn, hx.handler]
  | wait _ hdue _ ih =>
    exact ih ⟨ht.waits, ht.timer, Nat.le_trans ht.since ‹_›⟩ (hr.wait hdue) ho

end Tracks

/-- A request is tracked from the moment it is made. -/
theorem Ready.tracks_add {s s' : Session} {n : Nat} {asker : Asker} {r : Request} (hr : Ready s)
    (h : Step s (n, .add asker r) s') : Tracks s' n ⟨s.handler.nextId, 0, r, asker⟩ := by
  cases h with
  | add =>
    have hold : s.timers.filter (fun t => t.id = s.handler.nextId) = [] := by
      refine List.filter_eq_nil_iff.mpr fun t ht => ?_
      simpa using Nat.ne_of_lt (hr.known t ht)
    refine ⟨?_, ?_, ?_⟩
    · have hp := s.handler.step_add_pending? asker r r.responseChannel
      rwa [if_pos rfl] at hp
    · simp [ask, hold, Request.due]
    · simp [ask, Request.due]

/-- Between two commands, no request that is sent at intervals is due. -/
def Calm (s : Session) : Prop :=
  ∀ c p, s.handler.pending? c = some p → 0 < p.request.config.interval.toNat →
    ∀ t ∈ s.timers, t.id = p.id → s.now < t.due

theorem calm_of_lt {s : Session} (h : ∀ t ∈ s.timers, s.now < t.due) : Calm s :=
  fun _ _ _ _ t ht _ => h t ht

theorem Calm.step {s s' : Session} {x : Nat × Event Asker} (hc : Calm s) (hr : Ready s)
    (h : Step s x s') (hx : ∀ id c, x.2 ≠ .expire id c) : Calm s' := by
  have hsame : s'.now = s.now → s'.timers = s.timers → (∀ asker r, x.2 ≠ .add asker r) →
      Calm s' := by
    intro hnow htimers hadd c p' hp hI t ht hid
    rw [h.handler] at hp
    rcases hr.sound.pending?_step_cases hp with ⟨asker, r, he, -, -⟩ | ⟨p, hq, hn⟩
    · exact absurd he (hadd asker r)
    · rw [Pending.next_request hn] at hI
      rw [hnow]
      exact hc _ _ hq hI t (htimers ▸ ht) (hid.trans (Pending.next_id hn))
  cases h with
  | add asker r =>
    intro c p' hp hI t ht hid
    rcases hr.sound.pending?_step_cases (e := .add asker r) hp with
      ⟨asker', r', he, -, rfl⟩ | ⟨p, hq, hn⟩
    · cases he
      rcases List.mem_append.mp ht with ht | ht
      · exact absurd hid (Nat.ne_of_lt (hr.known t ht))
      · rw [List.mem_singleton.mp ht]
        exact Nat.lt_add_of_pos_right hI
    · rw [Pending.next_request hn] at hI
      rw [Pending.next_id hn] at hid
      rcases List.mem_append.mp ht with ht | ht
      · exact hc _ _ hq hI t ht hid
      · rw [List.mem_singleton.mp ht] at hid
        exact absurd hid (Nat.ne_of_gt (hr.sound.fresh hq))
  | receive m => exact hsame rfl rfl (by simp)
  | close => exact hsame rfl rfl (by simp)
  | expire _ => exact absurd rfl (hx _ _)

theorem Calm.lapse {s u : Session} {l : List (Nat × Event Asker)} (hc : Calm s) (hr : Ready s)
    (h : Lapse s l u) (hl : ∀ x ∈ l, ∀ id c, x.2 ≠ .expire id c) : Calm u := by
  induction h with
  | done s => exact hc
  | step hx _ ih =>
    exact ih (hc.step hr hx (hl _ List.mem_cons_self)) (hr.step hx)
      fun y hy => hl y (List.mem_cons_of_mem _ hy)
  | wait _ hdue _ ih => exact ih (calm_of_lt hdue) (hr.wait hdue) hl

private theorem ne_expire_of_mem_followUps {effects : List (Effect Asker)} {e : Event Asker}
    (he : e ∈ followUps effects) (id : Nat) (c : String) : e ≠ .expire id c := by
  induction effects with
  | nil => simp [followUps] at he
  | cons x rest ih =>
    cases x with
    | send id m => exact ih he
    | call id asker response =>
      simp only [followUps] at he
      cases hnext : asker.next with
      | nil =>
        rw [hnext] at he
        exact ih he
      | cons nr next =>
        rw [hnext] at he
        rcases List.mem_cons.mp he with rfl | he
        · simp
        · exact ih he

private theorem calm_perform {s : Session} (hc : Calm s) (hr : Ready s) (c : Command) :
    Calm (s.perform c).state := by
  have hfollows := (follows_perform hr.sound c).1
  cases c with
  | ask timersRun asker r =>
    refine hc.lapse hr hfollows fun x hx => ?_
    cases timersRun with
    | true =>
      rw [List.mem_singleton.mp hx]
      simp
    | false => simp [historyOf] at hx
  | receive m =>
    refine hc.lapse hr hfollows fun x hx => ?_
    obtain ⟨e, he, rfl⟩ := List.mem_map.mp hx
    rcases List.mem_cons.mp he with rfl | he
    · simp
    · exact ne_expire_of_mem_followUps he
  | sleep ms =>
    obtain ⟨-, hnow, hdue⟩ := follows_runTo hr.sound (Nat.le_add_right s.now ms)
      (Nat.le_refl s.work)
    refine calm_of_lt fun t ht => ?_
    rw [show (s.perform (.sleep ms)).state.now = s.now + ms from hnow]
    exact hdue t ht
  | close =>
    refine hc.lapse hr hfollows fun x hx => ?_
    rw [List.mem_singleton.mp hx]
    simp

theorem calm_performAll {s : Session} (hc : Calm s) (hr : Ready s) (commands : List Command) :
    Calm (s.performAll commands).state := by
  induction commands generalizing s with
  | nil => exact hc
  | cons c rest ih =>
    exact ih (calm_perform hc hr c) (hr.lapse (follows_perform hr.sound c).1)

end Session
end DeviceLink.Retry
