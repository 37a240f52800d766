import DeviceLink.Proofs.Retry.Run

/-! What holds of a handler in every run, and the story of one request in it. -/
namespace DeviceLink.Retry

variable {κ : Type}

namespace Pending

theorem acts_id {p : Pending κ} {e : Event κ} {x : Effect κ} (h : x ∈ p.acts e) : x.id = p.id := by
  unfold acts at h
  cases hn : p.next e with
  | ok p' =>
    simp only [hn] at h
    split_ifs at h
    · rw [List.mem_singleton.mp h]
      rfl
    · simp at h
  | error f =>
    simp only [hn] at h
    cases f <;> simp only [Fate.effects, List.mem_singleton, List.not_mem_nil] at h
    · rw [h]
      rfl
    · rw [h]
      rfl

theorem effectsOf_acts (p : Pending κ) (e : Event κ) (id : Nat) :
    effectsOf id (p.acts e) = if p.id = id then p.acts e else [] := by
  unfold effectsOf
  split_ifs with h
  · exact List.filter_eq_self.mpr fun x hx => by simp [acts_id hx, h]
  · exact List.filter_eq_nil_iff.mpr fun x hx => by simp [acts_id hx, h]

theorem next_receive {p : Pending κ} {m : Envelope} (h : p.request.responseChannel = m.channel) :
    p.next (.receive m) = .error (.answered m) := by
  simp [next, h]

theorem next_expire {p : Pending κ} {c : String} (h : p.request.responseChannel = c) :
    p.next (.expire p.id c) =
      if p.retries < p.request.config.maxRetries.toNat then .ok { p with retries := p.retries + 1 }
      else .error .exhausted := by
  simp [next, h]

theorem next_expire_of_ne {p : Pending κ} {id : Nat} {c : String} (h : id ≠ p.id) :
    p.next (.expire id c) = .ok p := by
  simp [next, h]

/-- An event on another channel does nothing to a request. -/
theorem next_expire_of_channel_ne {p : Pending κ} {id : Nat} {c : String}
    (h : c ≠ p.request.responseChannel) : p.next (.expire id c) = .ok p := by
  simp [next, h]

/-- Only its own timer, all repetitions made, exhausts a request. -/
theorem eq_of_next_exhausted {p : Pending κ} {e : Event κ} (h : p.next e = .error .exhausted) :
    e = .expire p.id p.request.responseChannel ∧
      p.request.config.maxRetries.toNat ≤ p.retries := by
  rcases next_error_cases h with ⟨_, _, -, -, hf⟩ | ⟨_, -, -, hf⟩ | ⟨he, hr, -⟩ | ⟨-, hf⟩
  · cases hf
  · cases hf
  · exact ⟨he, hr⟩
  · cases hf

theorem acts_of_ok_self {p : Pending κ} {e : Event κ} (h : p.next e = .ok p) : p.acts e = [] := by
  simp [acts, h]

end Pending

namespace Handler

structure Sound (h : Handler κ) : Prop where
  sorted : Ascending.Sorted h.pending
  keyed : ∀ {c p}, h.pending? c = some p → p.request.responseChannel = c
  fresh : ∀ {c p}, h.pending? c = some p → p.id < h.nextId
  distinct : ∀ {c c' p p'}, h.pending? c = some p → h.pending? c' = some p' → p.id = p'.id → c = c'
  bounded : ∀ {c p}, h.pending? c = some p → p.retries ≤ p.request.config.maxRetries.toNat

theorem sound_empty : Sound (empty : Handler κ) where
  sorted := Ascending.sorted_nil
  keyed h := by simp at h
  fresh h := by simp at h
  distinct h := by simp at h
  bounded h := by simp at h

/-- The request under each channel goes its own way, and only an addition puts a new one there. -/
theorem Sound.pending?_step {h : Handler κ} (hs : Sound h) (e : Event κ) (c : String) :
    (∃ asker r, e = .add asker r ∧ c = r.responseChannel ∧
        (h.step e).state.pending? c = some ⟨h.nextId, 0, r, asker⟩) ∨
      (h.step e).state.pending? c = (h.pending? c).bind fun p => (p.next e).toOption := by
  cases e with
  | add asker r =>
    by_cases hc : c = r.responseChannel
    · exact Or.inl ⟨asker, r, rfl, hc, by simp [hc]⟩
    · right
      cases hp : h.pending? c with
      | none => simp [hc, hp]
      | some p =>
        have hne : r.responseChannel ≠ p.request.responseChannel := by
          rw [hs.keyed hp]
          exact Ne.symm hc
        simp [hc, hp, Pending.next, hne, Except.toOption]
  | receive m =>
    right
    cases hp : h.pending? c with
    | none => simp [hp]
    | some p =>
      have hk := hs.keyed hp
      by_cases hc : c = m.channel
      · simp [hc, Pending.next_receive (hk.trans hc), Except.toOption]
      · have hne : m.channel ≠ p.request.responseChannel := by
          rw [hk]
          exact Ne.symm hc
        simp [hc, hp, Pending.next, hne, Except.toOption]
  | expire id c' =>
    right
    by_cases hw : ∃ q, h.pending? c' = some q ∧ q.id = id
    · obtain ⟨q, hq, rfl⟩ := hw
      have hqk := hs.keyed hq
      rw [step_expire_of_waiting hq]
      by_cases hc : c = c'
      · subst hc
        rw [hq, Option.bind_some, Pending.next_expire hqk]
        by_cases hr : q.retries < q.request.config.maxRetries.toNat
        · rw [(repeatOrGiveUp_resend h hr).2, if_pos hr]
          simp [pending?, hqk, Except.toOption]
        · rw [(repeatOrGiveUp_giveUp h hr).2, if_neg hr]
          simp [pending?, hqk, Except.toOption]
      · have hsame : (h.repeatOrGiveUp q).state.pending? c = h.pending? c := by
          by_cases hr : q.retries < q.request.config.maxRetries.toNat
          · rw [(repeatOrGiveUp_resend h hr).2]
            simp [pending?, hqk, hc]
          · rw [(repeatOrGiveUp_giveUp h hr).2]
            simp [pending?, hqk, hc]
        rw [hsame]
        cases hp : h.pending? c with
        | none => rfl
        | some p =>
          have hne : c' ≠ p.request.responseChannel := by
            rw [hs.keyed hp]
            exact Ne.symm hc
          simp [Pending.next_expire_of_channel_ne hne, Except.toOption]
    · rw [step_expire_of_stale fun p hp hid => hw ⟨p, hp, hid⟩]
      cases hp : h.pending? c with
      | none => simp
      | some p =>
        have hok : p.next (.expire id c') = .ok p := by
          by_cases hid : id = p.id
          · refine Pending.next_expire_of_channel_ne fun hc => hw ⟨p, ?_, hid.symm⟩
            rw [hc, hs.keyed hp]
            exact hp
          · exact Pending.next_expire_of_ne hid
        simp [hok, Except.toOption]
  | close =>
    right
    cases hp : h.pending? c with
    | none => simp
    | some p => simp [Pending.next, Except.toOption]

theorem Sound.step_expire_pending? {h : Handler κ} (hs : Sound h) (id : Nat) (c c' : String) :
    (h.step (.expire id c)).state.pending? c' =
      (h.pending? c').bind fun p => (p.next (.expire id c)).toOption := by
  rcases hs.pending?_step (.expire id c) c' with ⟨asker, r, he, -⟩ | heq
  · cases he
  · exact heq

theorem Sound.step_expire_effects {h : Handler κ} (hs : Sound h) (id : Nat) (c : String) :
    (h.step (.expire id c)).effects =
      (h.pending? c).elim [] fun p => p.acts (.expire id c) := by
  cases hp : h.pending? c with
  | none =>
    rw [step_expire_of_stale (by simp [hp])]
    rfl
  | some p =>
    have hk := hs.keyed hp
    by_cases hid : p.id = id
    · subst hid
      rw [step_expire_of_waiting hp, Option.elim_some]
      unfold Pending.acts
      rw [Pending.next_expire hk]
      by_cases hr : p.retries < p.request.config.maxRetries.toNat
      · rw [(repeatOrGiveUp_resend h hr).1, if_pos hr]
        simp
      · rw [(repeatOrGiveUp_giveUp h hr).1, if_neg hr]
        rfl
    · rw [step_expire_of_stale (by simp [hp, hid]), Option.elim_some,
        Pending.acts_of_ok_self (Pending.next_expire_of_ne (Ne.symm hid))]

theorem Sound.step_receive_effects {h : Handler κ} (hs : Sound h) (m : Envelope) :
    (h.step (.receive m)).effects =
      (h.pending? m.channel).elim [] fun p => p.acts (.receive m) := by
  cases hp : h.pending? m.channel with
  | none =>
    rw [step_receive_of_none hp]
    rfl
  | some p =>
    rw [(step_receive_of_some hp).2, Option.elim_some]
    unfold Pending.acts
    rw [Pending.next_receive (hs.keyed hp)]
    rfl

theorem nextId_le_step (h : Handler κ) (e : Event κ) : h.nextId ≤ (h.step e).state.nextId := by
  rw [nextId_step]
  exact Nat.le_add_right _ _

/-- Every entry after an event is new or an entry before it that goes on waiting. -/
theorem Sound.pending?_step_cases {h : Handler κ} (hs : Sound h) {e : Event κ} {c : String}
    {p' : Pending κ} (hp : (h.step e).state.pending? c = some p') :
    (∃ asker r, e = .add asker r ∧ c = r.responseChannel ∧ p' = ⟨h.nextId, 0, r, asker⟩) ∨
      ∃ p, h.pending? c = some p ∧ p.next e = .ok p' := by
  rcases hs.pending?_step e c with ⟨asker, r, he, hc, heq⟩ | heq
  · exact Or.inl ⟨asker, r, he, hc, Option.some.inj (hp.symm.trans heq)⟩
  · right
    rw [heq] at hp
    obtain ⟨p, hq, hn⟩ := Option.bind_eq_some_iff.mp hp
    refine ⟨p, hq, ?_⟩
    cases hx : p.next e with
    | ok q => simp [hx, Except.toOption] at hn; rw [hn]
    | error f => simp [hx, Except.toOption] at hn

private theorem sorted_step {h : Handler κ} (hs : Ascending.Sorted h.pending) (e : Event κ) :
    Ascending.Sorted (h.step e).state.pending := by
  cases e with
  | add asker r => exact hs.insert _ _
  | receive m =>
    cases hp : h.pending? m.channel with
    | none => rwa [step_receive_of_none hp]
    | some p =>
      rw [(step_receive_of_some hp).1]
      exact hs.erase _
  | expire id c =>
    by_cases hw : ∃ q, h.pending? c = some q ∧ q.id = id
    · obtain ⟨q, hq, rfl⟩ := hw
      rw [step_expire_of_waiting hq]
      by_cases hr : q.retries < q.request.config.maxRetries.toNat
      · rw [(repeatOrGiveUp_resend h hr).2]
        exact hs.insert _ _
      · rw [(repeatOrGiveUp_giveUp h hr).2]
        exact hs.erase _
    · rwa [step_expire_of_stale fun p hp hid => hw ⟨p, hp, hid⟩]
  | close => exact Ascending.sorted_nil

theorem Sound.step {h : Handler κ} (hs : Sound h) (e : Event κ) : Sound (h.step e).state where
  sorted := sorted_step hs.sorted e
  keyed {c p'} hp := by
    rcases hs.pending?_step_cases hp with ⟨asker, r, -, hc, rfl⟩ | ⟨p, hq, hn⟩
    · exact hc.symm
    · rw [Pending.next_request hn]
      exact hs.keyed hq
  fresh {c p'} hp := by
    rcases hs.pending?_step_cases hp with ⟨asker, r, rfl, -, rfl⟩ | ⟨p, hq, hn⟩
    · exact Nat.lt_succ_self _
    · rw [Pending.next_id hn]
      exact Nat.lt_of_lt_of_le (hs.fresh hq) (nextId_le_step h e)
  distinct {c c' p p'} hp hp' hid := by
    rcases hs.pending?_step_cases hp with ⟨asker, r, he, hc, rfl⟩ | ⟨q, hq, hn⟩
    · rcases hs.pending?_step_cases hp' with ⟨asker', r', he', hc', rfl⟩ | ⟨q', hq', hn'⟩
      · cases he.symm.trans he'
        exact hc.trans hc'.symm
      · rw [Pending.next_id hn'] at hid
        exact absurd (hs.fresh hq') (hid ▸ Nat.lt_irrefl _)
    · rcases hs.pending?_step_cases hp' with ⟨asker', r', he', hc', rfl⟩ | ⟨q', hq', hn'⟩
      · rw [Pending.next_id hn] at hid
        exact absurd (hs.fresh hq) (hid ▸ Nat.lt_irrefl _)
      · rw [Pending.next_id hn, Pending.next_id hn'] at hid
        exact hs.distinct hq hq' hid
  bounded {c p'} hp := by
    rcases hs.pending?_step_cases hp with ⟨asker, r, -, -, rfl⟩ | ⟨p, hq, hn⟩
    · exact Nat.zero_le _
    · have hb := hs.bounded hq
      have hr := (Pending.next_ok hn).2
      rw [Pending.next_request hn]
      omega

theorem Sound.run {h : Handler κ} (hs : Sound h) (events : List (Event κ)) :
    Sound (h.run events).state := by
  induction events generalizing h with
  | nil => exact hs
  | cons e rest ih => exact ih (hs.step e)

theorem nextId_le_run (h : Handler κ) (events : List (Event κ)) :
    h.nextId ≤ (h.run events).state.nextId := by
  rw [nextId_run]
  exact Nat.le_add_right _ _

/-- A request that does not wait and never will again. -/
def Gone (h : Handler κ) (id : Nat) : Prop :=
  id < h.nextId ∧ ∀ c p, h.pending? c = some p → p.id ≠ id

/-- What an event does on behalf of a request is done by the entry of that request. -/
theorem Sound.effectsOf_step {h : Handler κ} (hs : Sound h) (e : Event κ) {id : Nat}
    (hid : id < h.nextId) {x : Effect κ} (hx : x ∈ effectsOf id (h.step e).effects) :
    ∃ c p, h.pending? c = some p ∧ p.id = id ∧ x ∈ p.acts e := by
  obtain ⟨hx, hxid⟩ := List.mem_filter.mp hx
  have hxid : x.id = id := of_decide_eq_true hxid
  have key : ∀ c, x ∈ (h.pending? c).elim [] (fun p => p.acts e) →
      ∃ c p, h.pending? c = some p ∧ p.id = id ∧ x ∈ p.acts e := by
    intro c hc
    cases hp : h.pending? c with
    | none => simp [hp] at hc
    | some p =>
      rw [hp, Option.elim_some] at hc
      exact ⟨c, p, hp, (Pending.acts_id hc).symm.trans hxid, hc⟩
  cases e with
  | add asker r =>
    rw [step_add_effects, List.mem_singleton] at hx
    rw [hx] at hxid
    exact absurd hxid (by simp only [Effect.id]; omega)
  | receive m => exact key _ (hs.step_receive_effects m ▸ hx)
  | expire id' c => exact key _ (hs.step_expire_effects id' c ▸ hx)
  | close => simp at hx

private theorem Sound.gone_step {h : Handler κ} (hs : Sound h) {id : Nat} (hg : Gone h id)
    (e : Event κ) : Gone (h.step e).state id ∧ effectsOf id (h.step e).effects = [] := by
  refine ⟨⟨Nat.lt_of_lt_of_le hg.1 (nextId_le_step h e), fun c p' hp => ?_⟩, ?_⟩
  · rcases hs.pending?_step_cases hp with ⟨asker, r, -, -, rfl⟩ | ⟨p, hq, hn⟩
    · exact Nat.ne_of_gt hg.1
    · rw [Pending.next_id hn]
      exact hg.2 c p hq
  · refine List.eq_nil_iff_forall_not_mem.mpr fun x hx => ?_
    obtain ⟨c, p, hp, hid, -⟩ := hs.effectsOf_step e hg.1 hx
    exact hg.2 c p hp hid

theorem Sound.gone_run {h : Handler κ} (hs : Sound h) {id : Nat} (hg : Gone h id)
    (events : List (Event κ)) :
    Gone (h.run events).state id ∧ effectsOf id (h.run events).effects = [] := by
  induction events generalizing h with
  | nil => exact ⟨hg, rfl⟩
  | cons e rest ih =>
    obtain ⟨hg', he⟩ := hs.gone_step hg e
    obtain ⟨hg'', hr⟩ := ih (hs.step e) hg'
    exact ⟨hg'', by simp [he, hr]⟩

/-- Whichever channel an event looks at, on behalf of a request only the request acts. -/
theorem Sound.effectsOf_elim {h : Handler κ} (hs : Sound h) {c c' : String} {p : Pending κ}
    {e : Event κ} (hp : h.pending? c = some p) (hacts : c' ≠ c → p.acts e = []) :
    effectsOf p.id ((h.pending? c').elim [] fun q => q.acts e) = p.acts e := by
  by_cases hc : c' = c
  · rw [hc, hp, Option.elim_some, Pending.effectsOf_acts, if_pos rfl]
  · rw [hacts hc]
    cases hq : h.pending? c' with
    | none => rfl
    | some q =>
      rw [Option.elim_some, Pending.effectsOf_acts]
      exact if_neg fun hid => hc (hs.distinct hq hp hid)

/-- One event, for a request that waits: what is done for it, and whether it still waits. -/
theorem Sound.waiting_step {h : Handler κ} (hs : Sound h) {c : String} {p : Pending κ}
    (hp : h.pending? c = some p) (e : Event κ) :
    effectsOf p.id (h.step e).effects = p.acts e ∧
      match p.next e with
      | .ok p' => (h.step e).state.pending? c = some p'
      | .error _ => Gone (h.step e).state p.id := by
  have hk := hs.keyed hp
  constructor
  · cases e with
    | add asker r =>
      have hne : h.nextId ≠ p.id := Nat.ne_of_gt (hs.fresh hp)
      have hacts : p.acts (.add asker r) = [] := by
        unfold Pending.acts
        by_cases hc : r.responseChannel = p.request.responseChannel <;>
          simp [Pending.next, hc, Fate.effects]
      rw [hacts, step_add_effects, effectsOf_singleton]
      exact if_neg hne
    | receive m =>
      rw [hs.step_receive_effects]
      refine hs.effectsOf_elim hp fun hc => Pending.acts_of_ok_self ?_
      simp [Pending.next, hk, hc]
    | expire id c' =>
      rw [hs.step_expire_effects]
      refine hs.effectsOf_elim hp fun hc => Pending.acts_of_ok_self ?_
      exact Pending.next_expire_of_channel_ne (hk ▸ hc)
    | close => rfl
  · cases hn : p.next e with
    | ok p' =>
      rcases hs.pending?_step e c with ⟨asker, r, rfl, hc, heq⟩ | heq
      · simp [Pending.next, hc, hk] at hn
      · simpa [hp, hn, Except.toOption] using heq
    | error f =>
      refine ⟨Nat.lt_of_lt_of_le (hs.fresh hp) (nextId_le_step h e), fun c' p' hp' => ?_⟩
      rcases hs.pending?_step_cases hp' with ⟨asker, r, -, -, rfl⟩ | ⟨q, hq, hn'⟩
      · exact Nat.ne_of_gt (hs.fresh hp)
      · rw [Pending.next_id hn']
        intro hid
        have hc := hs.distinct hq hp hid
        rw [hc, hp] at hq
        cases hq
        rw [hn] at hn'
        cases hn'

/-- The story of a request that waits, over any events. -/
theorem Sound.waiting_run {h : Handler κ} (hs : Sound h) {c : String} {p : Pending κ}
    (hp : h.pending? c = some p) (events : List (Event κ)) :
    effectsOf p.id (h.run events).effects = p.story events ∧
      match p.after events with
      | .ok p' => (h.run events).state.pending? c = some p'
      | .error _ => Gone (h.run events).state p.id := by
  induction events generalizing h p with
  | nil => exact ⟨rfl, hp⟩
  | cons e rest ih =>
    obtain ⟨heff, hnext⟩ := hs.waiting_step hp e
    rw [Pending.after_cons]
    cases hn : p.next e with
    | ok p' =>
      rw [hn] at hnext
      have hid : p'.id = p.id := Pending.next_id hn
      obtain ⟨hstory, hafter⟩ := ih (hs.step e) hnext
      rw [hid] at hstory hafter
      exact ⟨by simp [heff, hstory, Pending.story, hn], hafter⟩
    | error f =>
      rw [hn] at hnext
      obtain ⟨hg, hnone⟩ := (hs.step e).gone_run hnext rest
      exact ⟨by simp [heff, hnone, Pending.story, hn], hg⟩

end Handler
end DeviceLink.Retry
