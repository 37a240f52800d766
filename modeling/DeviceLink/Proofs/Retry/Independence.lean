import DeviceLink.Proofs.Retry.Invariant

/-! Response channels do not see each other: a run, as seen from one channel, is the run of the
events on that channel alone. The requests of the shorter run are numbered anew. -/
namespace DeviceLink.Retry

variable {κ : Type}

def IsOn (c : String) (rs : List Request) (id : Nat) : Prop :=
  rs[id]?.map Request.responseChannel = some c

instance (c : String) (rs : List Request) (id : Nat) : Decidable (IsOn c rs id) :=
  inferInstanceAs (Decidable (_ = _))

/-- How many requests on a channel were added before the one with an id. -/
def rank (c : String) (rs : List Request) (id : Nat) : Nat :=
  (rs.take id).countP fun r => r.responseChannel = c

/-- An event that concerns a channel, as it is among the events on that channel alone. The end of
the handler concerns every channel. -/
def Event.onChannel? (c : String) (rs : List Request) : Event κ → Option (Event κ)
  | .add asker r => if r.responseChannel = c then some (.add asker r) else none
  | .receive m => if m.channel = c then some (.receive m) else none
  | .expire id channel =>
    if channel = c ∧ IsOn c rs id then some (.expire (rank c rs id) channel) else none
  | .close => some .close

/-- The run that is left when all that concerns other channels is deleted. -/
def onChannel (c : String) (events : List (Event κ)) : List (Event κ) :=
  events.filterMap (Event.onChannel? c (requests events))

def Effect.renumber (f : Nat → Nat) : Effect κ → Effect κ
  | .send id m => .send (f id) m
  | .call id asker response => .call (f id) asker response

/-- What is done on behalf of the requests on a channel, by their numbers on that channel. -/
def effectsOn (c : String) (rs : List Request) (effects : List (Effect κ)) : List (Effect κ) :=
  (effects.filter fun x => IsOn c rs x.id).map (Effect.renumber (rank c rs))

namespace Handler

def answers (c : String) (h : Handler κ) : List (Event κ) → List Bool
  | [] => []
  | .receive m :: rest =>
    (if m.channel = c then [(h.receive? m).isSome] else []) ++
      answers c (h.step (.receive m)).state rest
  | e :: rest => answers c (h.step e).state rest

/-- Whether a request waits on a channel, after each event that is kept. -/
def waitings (c : String) (keep : Event κ → Bool) (h : Handler κ) : List (Event κ) → List Bool
  | [] => []
  | e :: rest =>
    (if keep e then [(h.step e).state.isPending c] else []) ++
      waitings c keep (h.step e).state rest

end Handler

def Pending.renumber (f : Nat → Nat) (p : Pending κ) : Pending κ := { p with id := f p.id }

@[simp] theorem Pending.renumber_id (f : Nat → Nat) (p : Pending κ) :
    (p.renumber f).id = f p.id := rfl

@[simp] theorem Pending.renumber_retries (f : Nat → Nat) (p : Pending κ) :
    (p.renumber f).retries = p.retries := rfl

@[simp] theorem Pending.renumber_request (f : Nat → Nat) (p : Pending κ) :
    (p.renumber f).request = p.request := rfl

theorem rank_succ {c : String} {rs : List Request} {id : Nat} {r : Request}
    (h : rs[id]? = some r) :
    rank c rs (id + 1) = rank c rs id + if r.responseChannel = c then 1 else 0 := by
  unfold rank
  rw [List.take_add_one, h, List.countP_append]
  by_cases hc : r.responseChannel = c <;> simp [hc]

private theorem rank_mono (c : String) (rs : List Request) {i j : Nat} (h : i ≤ j) :
    rank c rs i ≤ rank c rs j :=
  (List.take_sublist_take_left h).countP_le

theorem rank_lt {c : String} {rs : List Request} {i j : Nat} (hi : IsOn c rs i) (h : i < j) :
    rank c rs i < rank c rs j := by
  obtain ⟨r, hr, hc⟩ := Option.map_eq_some_iff.mp hi
  have hs := rank_succ (c := c) hr
  rw [if_pos hc] at hs
  have hm : rank c rs (i + 1) ≤ rank c rs j := rank_mono c rs h
  omega

/-- The numbers on a channel tell its requests apart. -/
theorem rank_inj {c : String} {rs : List Request} {i j : Nat} (hi : IsOn c rs i)
    (hj : IsOn c rs j) : rank c rs i = rank c rs j ↔ i = j := by
  refine ⟨fun h => ?_, fun h => h ▸ rfl⟩
  rcases Nat.lt_trichotomy i j with hlt | heq | hgt
  · exact absurd h (Nat.ne_of_lt (rank_lt hi hlt))
  · exact heq
  · exact absurd h (Nat.ne_of_gt (rank_lt hj hgt))

/-- The events that stay, and as what. -/
theorem Event.of_onChannel?_eq_some {c : String} {rs : List Request} {e e' : Event κ}
    (h : e.onChannel? c rs = some e') :
    match e with
    | .add _ r => r.responseChannel = c ∧ e' = e
    | .receive m => m.channel = c ∧ e' = e
    | .expire id channel =>
      (channel = c ∧ IsOn c rs id) ∧ e' = .expire (rank c rs id) channel
    | .close => e' = e := by
  cases e with
  | add asker r =>
    simp only [onChannel?] at h
    split_ifs at h with hc
    exact ⟨hc, (Option.some.inj h).symm⟩
  | receive m =>
    simp only [onChannel?] at h
    split_ifs at h with hc
    exact ⟨hc, (Option.some.inj h).symm⟩
  | expire id channel =>
    simp only [onChannel?] at h
    split_ifs at h with hc
    exact ⟨hc, (Option.some.inj h).symm⟩
  | close => exact (Option.some.inj h).symm

/-- A request goes the same way under its new number. -/
theorem Pending.next_renumber {c : String} {rs : List Request} {p : Pending κ} {e e' : Event κ}
    (hp : IsOn c rs p.id) (he : e.onChannel? c rs = some e') :
    (p.renumber (rank c rs)).next e' = (p.next e).map (renumber (rank c rs)) := by
  have hkept := Event.of_onChannel?_eq_some he
  cases e with
  | add asker r =>
    obtain ⟨-, rfl⟩ := hkept
    by_cases h : r.responseChannel = p.request.responseChannel <;> simp [next, h, Except.map]
  | receive m =>
    obtain ⟨-, rfl⟩ := hkept
    by_cases h : m.channel = p.request.responseChannel <;> simp [next, h, Except.map]
  | expire id channel =>
    obtain ⟨hc, rfl⟩ := hkept
    have hid : rank c rs id = rank c rs p.id ↔ id = p.id := rank_inj hc.2 hp
    by_cases hw : id = p.id ∧ channel = p.request.responseChannel
    · by_cases hr : p.retries < p.request.config.maxRetries.toNat
      · simp [next, hw, hr, Except.map, renumber]
      · simp [next, hw, hr, Except.map]
    · simp [next, hid, hw, Except.map]
  | close =>
    cases he
    rfl

theorem Pending.acts_renumber {c : String} {rs : List Request} {p : Pending κ} {e e' : Event κ}
    (hp : IsOn c rs p.id) (he : e.onChannel? c rs = some e') :
    (p.renumber (rank c rs)).acts e' = (p.acts e).map (Effect.renumber (rank c rs)) := by
  unfold acts
  rw [next_renumber hp he]
  cases hn : p.next e with
  | ok p' => by_cases hr : p.retries < p'.retries <;> simp [Except.map, hr, Effect.renumber]
  | error f => cases f <;> rfl

/-- A handler and one that knows only the requests on a channel. -/
structure Mirrors (c : String) (rs : List Request) (h g : Handler κ) : Prop where
  sound : h.Sound
  sound_own : g.Sound
  numbered : g.nextId = rank c rs h.nextId
  alone : ∀ c', c' ≠ c → g.pending? c' = none
  same : g.pending? c = (h.pending? c).map (Pending.renumber (rank c rs))
  known : ∀ {c' p}, h.pending? c' = some p → rs[p.id]? = some p.request

namespace Mirrors

variable {c : String} {rs : List Request} {h g : Handler κ}

theorem isOn (m : Mirrors c rs h g) {c' : String} {p : Pending κ} (hp : h.pending? c' = some p) :
    IsOn c' rs p.id := by
  unfold IsOn
  rw [m.known hp, Option.map_some, m.sound.keyed hp]

theorem not_isOn (m : Mirrors c rs h g) {c' : String} {p : Pending κ}
    (hp : h.pending? c' = some p) (hc : c' ≠ c) : ¬ IsOn c rs p.id := by
  intro hon
  exact hc (Option.some.inj ((m.isOn hp).symm.trans hon))

theorem isPending_eq (m : Mirrors c rs h g) : g.isPending c = h.isPending c := by
  rw [Handler.isPending, Handler.isPending, m.same, Option.isSome_map]

theorem receive?_isSome (m : Mirrors c rs h g) {e : Envelope} (he : e.channel = c) :
    (g.receive? e).isSome = (h.receive? e).isSome := by
  rw [Handler.receive?, Handler.receive?, Option.isSome_map, Option.isSome_map, he]
  exact m.isPending_eq

theorem known_step (m : Mirrors c rs h g) {e : Event κ}
    (hadd : ∀ asker r, e = .add asker r → rs[h.nextId]? = some r) {c' : String} {p : Pending κ}
    (hp : (h.step e).state.pending? c' = some p) : rs[p.id]? = some p.request := by
  rcases m.sound.pending?_step_cases hp with ⟨asker, r, he, -, rfl⟩ | ⟨q, hq, hn⟩
  · exact hadd asker r he
  · rw [Pending.next_id hn, Pending.next_request hn]
    exact m.known hq

/-- What is done for the requests under a channel concerns that channel. -/
theorem effectsOn_elim (m : Mirrors c rs h g) (c' : String) (e : Event κ) :
    effectsOn c rs ((h.pending? c').elim [] fun p => p.acts e) =
      if c' = c then (((h.pending? c').elim [] fun p => p.acts e).map
        (Effect.renumber (rank c rs))) else [] := by
  cases hp : h.pending? c' with
  | none => simp [effectsOn]
  | some p =>
    rw [Option.elim_some]
    unfold effectsOn
    split_ifs with hc
    · rw [List.filter_eq_self.mpr fun x hx => ?_]
      rw [Pending.acts_id hx]
      exact decide_eq_true (hc ▸ m.isOn hp)
    · rw [List.filter_eq_nil_iff.mpr fun x hx => ?_]
      · rfl
      · rw [Pending.acts_id hx]
        simpa using m.not_isOn hp hc

theorem bind_next_renumber (m : Mirrors c rs h g) {e e' : Event κ}
    (he : e.onChannel? c rs = some e') :
    ((h.pending? c).map (Pending.renumber (rank c rs))).bind (fun p => (p.next e').toOption) =
      ((h.pending? c).bind fun p => (p.next e).toOption).map (Pending.renumber (rank c rs)) := by
  cases hp : h.pending? c with
  | none => rfl
  | some p =>
    simp only [Option.map_some, Option.bind_some, Pending.next_renumber (m.isOn hp) he]
    cases p.next e <;> rfl

theorem elim_acts_renumber (m : Mirrors c rs h g) {e e' : Event κ}
    (he : e.onChannel? c rs = some e') :
    ((h.pending? c).elim [] fun p => p.acts e).map (Effect.renumber (rank c rs)) =
      ((h.pending? c).map (Pending.renumber (rank c rs))).elim [] fun p => p.acts e' := by
  cases hp : h.pending? c with
  | none => rfl
  | some p => exact (Pending.acts_renumber (m.isOn hp) he).symm

/-- An event that stays does the same in both runs. -/
theorem step_kept (m : Mirrors c rs h g) {e e' : Event κ} (he : e.onChannel? c rs = some e')
    (hadd : ∀ asker r, e = .add asker r → rs[h.nextId]? = some r) :
    Mirrors c rs (h.step e).state (g.step e').state ∧
      effectsOn c rs (h.step e).effects = (g.step e').effects := by
  have hkept := Event.of_onChannel?_eq_some he
  cases e with
  | add asker r =>
    obtain ⟨hc, rfl⟩ := hkept
    have hr := hadd asker r rfl
    have hon : IsOn c rs h.nextId := by
      unfold IsOn
      rw [hr, Option.map_some, hc]
    refine ⟨⟨m.sound.step _, m.sound_own.step _, ?_, ?_, ?_, m.known_step hadd⟩, ?_⟩
    · rw [Handler.step_add_nextId, Handler.step_add_nextId, rank_succ hr, if_pos hc, m.numbered]
    · intro c' hc'
      rw [Handler.step_add_pending?, if_neg (hc ▸ hc'), m.alone c' hc']
    · simp [hc, Pending.renumber, m.numbered]
    · simp [effectsOn, Effect.id, hon, Effect.renumber, m.numbered]
  | receive msg =>
    obtain ⟨hc, rfl⟩ := hkept
    refine ⟨⟨m.sound.step _, m.sound_own.step _, ?_, ?_, ?_, m.known_step hadd⟩, ?_⟩
    · simpa using m.numbered
    · intro c' hc'
      simp [m.alone c' hc']
    · simp [hc]
    · rw [m.sound.step_receive_effects, m.sound_own.step_receive_effects, m.effectsOn_elim,
        if_pos hc, hc, m.same, m.elim_acts_renumber he]
  | expire id channel =>
    obtain ⟨hc, rfl⟩ := hkept
    refine ⟨⟨m.sound.step _, m.sound_own.step _, ?_, ?_, ?_, m.known_step hadd⟩, ?_⟩
    · simpa using m.numbered
    · intro c' hc'
      rw [m.sound_own.step_expire_pending?, m.alone c' hc']
      rfl
    · rw [m.sound_own.step_expire_pending?, m.sound.step_expire_pending?, m.same,
        m.bind_next_renumber he]
    · rw [m.sound.step_expire_effects, m.sound_own.step_expire_effects, m.effectsOn_elim,
        if_pos hc.1, hc.1, m.same, m.elim_acts_renumber (hc.1 ▸ he)]
  | close =>
    obtain rfl : e' = .close := hkept
    refine ⟨⟨m.sound.step _, m.sound_own.step _, ?_, ?_, ?_, m.known_step hadd⟩, rfl⟩
    · simpa using m.numbered
    · intro c' hc'
      simp
    · simp

/-- An event that is deleted does nothing on the channel. -/
theorem step_left (m : Mirrors c rs h g) {e : Event κ} (he : e.onChannel? c rs = none)
    (hadd : ∀ asker r, e = .add asker r → rs[h.nextId]? = some r) :
    Mirrors c rs (h.step e).state g ∧ effectsOn c rs (h.step e).effects = [] := by
  cases e with
  | add asker r =>
    simp only [Event.onChannel?] at he
    split_ifs at he with hc
    have hr := hadd asker r rfl
    have hon : ¬ IsOn c rs h.nextId := by
      unfold IsOn
      rw [hr, Option.map_some]
      exact fun heq => hc (Option.some.inj heq)
    refine ⟨⟨m.sound.step _, m.sound_own, ?_, m.alone, ?_, m.known_step hadd⟩, ?_⟩
    · rw [Handler.step_add_nextId, rank_succ hr, if_neg hc, m.numbered, Nat.add_zero]
    · rw [Handler.step_add_pending?, if_neg (Ne.symm hc), m.same]
    · simp [effectsOn, Effect.id, hon]
  | receive msg =>
    simp only [Event.onChannel?] at he
    split_ifs at he with hc
    refine ⟨⟨m.sound.step _, m.sound_own, ?_, m.alone, ?_, m.known_step hadd⟩, ?_⟩
    · simpa using m.numbered
    · rw [Handler.step_receive_pending?, if_neg (Ne.symm hc), m.same]
    · rw [m.sound.step_receive_effects, m.effectsOn_elim, if_neg hc]
  | expire id channel =>
    simp only [Event.onChannel?] at he
    split_ifs at he with hc
    -- The timer is not that of the request that waits: an id is given to one request only, even
    -- where the timer runs on the same channel.
    have hkeep : ∀ p, h.pending? c = some p → p.next (.expire id channel) = .ok p := by
      intro p hp
      by_cases hch : channel = c
      · refine Pending.next_expire_of_ne fun hid => hc ⟨hch, ?_⟩
        rw [hid]
        exact m.isOn hp
      · refine Pending.next_expire_of_channel_ne ?_
        rw [m.sound.keyed hp]
        exact hch
    refine ⟨⟨m.sound.step _, m.sound_own, ?_, m.alone, ?_, m.known_step hadd⟩, ?_⟩
    · simpa using m.numbered
    · rw [m.sound.step_expire_pending?, m.same]
      cases hp : h.pending? c with
      | none => rfl
      | some p => simp [hkeep p hp, Except.toOption]
    · rw [m.sound.step_expire_effects, m.effectsOn_elim]
      split_ifs with hch
      · rw [hch]
        cases hp : h.pending? c with
        | none => rfl
        | some p =>
          rw [Option.elim_some, ← hch, Pending.acts_of_ok_self (hkeep p hp)]
          rfl
      · rfl
  | close => cases he

end Mirrors

@[simp] theorem effectsOn_append (c : String) (rs : List Request) (xs ys : List (Effect κ)) :
    effectsOn c rs (xs ++ ys) = effectsOn c rs xs ++ effectsOn c rs ys := by
  simp [effectsOn]

namespace Handler

theorem answers_cons (c : String) (h : Handler κ) (e : Event κ) (rest : List (Event κ)) :
    answers c h (e :: rest) = answers c h [e] ++ answers c (h.step e).state rest := by
  cases e <;> simp [answers]

theorem mirrors_empty (c : String) (rs : List Request) :
    Mirrors c rs (empty : Handler κ) empty where
  sound := sound_empty
  sound_own := sound_empty
  numbered := by simp [rank, empty]
  alone c' _ := pending?_empty c'
  same := by simp
  known hp := by simp at hp

end Handler

private theorem Mirrors.answers_kept {c : String} {rs : List Request} {h g : Handler κ}
    {e e' : Event κ} (m : Mirrors c rs h g) (he : e.onChannel? c rs = some e') :
    h.answers c [e] = g.answers c [e'] := by
  have hkept := Event.of_onChannel?_eq_some he
  cases e with
  | add asker r =>
    obtain ⟨-, rfl⟩ := hkept
    rfl
  | receive msg =>
    obtain ⟨hc, rfl⟩ := hkept
    simp [Handler.answers, hc, m.receive?_isSome hc]
  | expire id channel =>
    obtain ⟨-, rfl⟩ := hkept
    rfl
  | close =>
    obtain rfl : e' = .close := hkept
    rfl

/-- The ids still to be given away are those of the requests still to come. -/
theorem Mirrors.run {c : String} {rs : List Request} {h g : Handler κ} {events : List (Event κ)}
    (m : Mirrors c rs h g) (hrs : rs.drop h.nextId = requests events) :
    effectsOn c rs (h.run events).effects =
        (g.run (events.filterMap (Event.onChannel? c rs))).effects ∧
      h.answers c events = g.answers c (events.filterMap (Event.onChannel? c rs)) ∧
      h.waitings c (fun e => (e.onChannel? c rs).isSome) events =
        g.waitings c (fun _ => true) (events.filterMap (Event.onChannel? c rs)) := by
  induction events generalizing h g with
  | nil => exact ⟨rfl, rfl, rfl⟩
  | cons e rest ih =>
    have hadd : ∀ asker r, e = .add asker r → rs[h.nextId]? = some r := by
      rintro asker r rfl
      have h0 := congrArg List.head? hrs
      simpa [requests_cons, Event.request?] using h0
    have hrest : rs.drop (h.step e).state.nextId = requests rest := by
      cases e with
      | add asker r =>
        rw [Handler.step_add_nextId, ← List.drop_drop, hrs]
        rfl
      | receive msg => rwa [Handler.step_receive_nextId]
      | expire id channel => rwa [Handler.step_expire_nextId]
      | close => exact hrs
    cases he : e.onChannel? c rs with
    | some e' =>
      obtain ⟨m', heff⟩ := m.step_kept he hadd
      obtain ⟨h₁, h₂, h₃⟩ := ih m' hrest
      have hans := m.answers_kept he
      rw [List.filterMap_cons_some he]
      refine ⟨?_, ?_, ?_⟩
      · simp [heff, h₁]
      · rw [Handler.answers_cons, Handler.answers_cons _ _ e', hans, h₂]
      · simp [Handler.waitings, he, m'.isPending_eq, h₃]
    | none =>
      obtain ⟨m', heff⟩ := m.step_left he hadd
      obtain ⟨h₁, h₂, h₃⟩ := ih m' hrest
      have hans : h.answers c [e] = [] := by
        cases e <;> simp_all [Handler.answers, Event.onChannel?]
      rw [List.filterMap_cons_none he]
      refine ⟨?_, ?_, ?_⟩
      · simp [heff, h₁]
      · rw [Handler.answers_cons, hans, List.nil_append, h₂]
      · simp [Handler.waitings, he, h₃]

/-- A message is taken as an answer just where a request waits, and changes nothing elsewhere. -/
theorem Handler.receive_cases (h : Handler κ) (m : Envelope) :
    (h.receive? m).isSome = h.isPending m.channel ∧
      (h.isPending m.channel = true ∨ (h.step (.receive m)).state = h) := by
  refine ⟨by rw [receive?, Option.isSome_map, isPending], ?_⟩
  cases hp : h.pending? m.channel with
  | none => exact Or.inr (by rw [step_receive_of_none hp])
  | some p => exact Or.inl (by rw [isPending, hp]; rfl)

/-- Deleting what concerns other channels leaves unchanged what is done on behalf of the requests
on a channel, which messages on it are answers, and when a request waits on it. In either run ids
count the requests, so the first `2 ^ 64` of them have ids of 64 bits. -/
theorem channels_independent (c : String) (events : List (Event κ)) :
    effectsOn c (requests events) (Handler.empty.run events).effects =
        (Handler.empty.run (onChannel c events)).effects ∧
      Handler.empty.answers c events = Handler.empty.answers c (onChannel c events) ∧
      Handler.empty.waitings c (fun e => (e.onChannel? c (requests events)).isSome) events =
        Handler.empty.waitings c (fun _ => true) (onChannel c events) ∧
      (∀ m : Envelope,
        ((Handler.empty.run events).state.receive? m).isSome =
            (Handler.empty.run events).state.isPending m.channel ∧
          ((Handler.empty.run events).state.isPending m.channel = true ∨
            (Handler.empty.run (events ++ [.receive m])).state =
              (Handler.empty.run events).state)) ∧
      (Handler.empty.run events).state.nextId = (requests events).length ∧
      (Handler.empty.run (onChannel c events)).state.nextId =
        (requests (onChannel c events)).length := by
  obtain ⟨heff, hans, hwait⟩ := (Handler.mirrors_empty c (requests events)).run
    (List.drop_zero (l := requests events))
  have hcount : ∀ l : List (Event κ),
      (Handler.empty.run l).state.nextId = (requests l).length :=
    fun l => (Handler.nextId_run _ l).trans (Nat.zero_add _)
  refine ⟨heff, hans, hwait, fun m => ?_, hcount events, hcount _⟩
  rw [Handler.run_append_state]
  exact Handler.receive_cases _ m

end DeviceLink.Retry
