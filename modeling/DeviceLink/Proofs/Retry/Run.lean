import DeviceLink.Proofs.Ascending
import DeviceLink.Retry.Handler

/-! Runs of a handler, its events in any order, and what one event does to one waiting request. -/
namespace DeviceLink.Retry

/-- What happens to a handler. A timer may run out whether or not its request still waits. -/
inductive Event (κ : Type)
  | add (asker : κ) (request : Request)
  | receive (message : Envelope)
  | expire (id : Nat) (channel : String)
  | close
  deriving DecidableEq, Repr

inductive Fate
  | pending
  | answered (message : Envelope)
  | exhausted
  | replaced
  | dropped
  deriving DecidableEq, Repr

variable {κ : Type}

def Event.request? : Event κ → Option Request
  | .add _ r => some r
  | .receive _ | .expire _ _ | .close => none

/-- The requests of a run by their ids, which count them. -/
def requests (events : List (Event κ)) : List Request := events.filterMap Event.request?

theorem requests_cons (e : Event κ) (rest : List (Event κ)) :
    requests (e :: rest) = e.request?.toList ++ requests rest := by
  cases e <;> rfl

def Effect.id : Effect κ → Nat
  | .send id _ => id
  | .call id _ _ => id

def effectsOf (id : Nat) (effects : List (Effect κ)) : List (Effect κ) :=
  effects.filter fun x => x.id = id

@[simp] theorem effectsOf_nil (id : Nat) : effectsOf id ([] : List (Effect κ)) = [] := rfl

@[simp] theorem effectsOf_append (id : Nat) (xs ys : List (Effect κ)) :
    effectsOf id (xs ++ ys) = effectsOf id xs ++ effectsOf id ys := List.filter_append _ _

theorem effectsOf_singleton (id : Nat) (x : Effect κ) :
    effectsOf id [x] = if x.id = id then [x] else [] := by
  by_cases h : x.id = id <;> simp [effectsOf, h]

def Fate.effects (p : Pending κ) : Fate → List (Effect κ)
  | .answered m => [.call p.id p.asker (some m)]
  | .exhausted => [.call p.id p.asker none]
  | .pending | .replaced | .dropped => []

namespace Pending

/-- What an event makes of a request that waits: it goes on waiting or meets its fate. -/
def next (p : Pending κ) : Event κ → Except Fate (Pending κ)
  | .add _ r => if r.responseChannel = p.request.responseChannel then .error .replaced else .ok p
  | .receive m =>
    if m.channel = p.request.responseChannel then .error (.answered m) else .ok p
  | .expire id channel =>
    if id = p.id ∧ channel = p.request.responseChannel then
      if p.retries < p.request.config.maxRetries.toNat then .ok { p with retries := p.retries + 1 }
      else .error .exhausted
    else .ok p
  | .close => .error .dropped

/-- What an event does on behalf of a request that waits. -/
def acts (p : Pending κ) (e : Event κ) : List (Effect κ) :=
  match p.next e with
  | .ok p' => if p.retries < p'.retries then [.send p.id p.request.message] else []
  | .error f => f.effects p

def after (p : Pending κ) (events : List (Event κ)) : Except Fate (Pending κ) :=
  events.foldlM next p

def story (p : Pending κ) : List (Event κ) → List (Effect κ)
  | [] => []
  | e :: rest =>
    p.acts e ++ match p.next e with
      | .ok p' => p'.story rest
      | .error _ => []

@[simp] theorem after_nil (p : Pending κ) : p.after [] = .ok p := rfl

theorem after_cons (p : Pending κ) (e : Event κ) (rest : List (Event κ)) :
    p.after (e :: rest) = (p.next e).bind fun p' => p'.after rest := rfl

theorem after_append (p : Pending κ) (xs ys : List (Event κ)) :
    p.after (xs ++ ys) = (p.after xs).bind fun p' => p'.after ys :=
  List.foldlM_append

/-- A request that goes on waiting is as it was, or its timer has run out and it is sent again. -/
theorem next_ok_cases {p p' : Pending κ} {e : Event κ} (h : p.next e = .ok p') :
    p' = p ∨ e = .expire p.id p.request.responseChannel ∧
      p.retries < p.request.config.maxRetries.toNat ∧ p' = { p with retries := p.retries + 1 } := by
  cases e with
  | add asker r =>
    simp only [next] at h
    split_ifs at h
    exact Or.inl (Except.ok.inj h).symm
  | receive m =>
    simp only [next] at h
    split_ifs at h
    exact Or.inl (Except.ok.inj h).symm
  | expire id channel =>
    simp only [next] at h
    split_ifs at h with hown hr
    · obtain ⟨rfl, rfl⟩ := hown
      exact Or.inr ⟨rfl, hr, (Except.ok.inj h).symm⟩
    · exact Or.inl (Except.ok.inj h).symm
  | close => cases h

/-- The events that end the waiting of a request, each with the fate that it brings. -/
theorem next_error_cases {p : Pending κ} {e : Event κ} {f : Fate} (h : p.next e = .error f) :
    (∃ asker r, e = .add asker r ∧ r.responseChannel = p.request.responseChannel ∧
        f = .replaced) ∨
      (∃ m, e = .receive m ∧ m.channel = p.request.responseChannel ∧ f = .answered m) ∨
      (e = .expire p.id p.request.responseChannel ∧
        p.request.config.maxRetries.toNat ≤ p.retries ∧ f = .exhausted) ∨
      e = .close ∧ f = .dropped := by
  cases e with
  | add asker r =>
    simp only [next] at h
    split_ifs at h with hc
    exact Or.inl ⟨asker, r, rfl, hc, (Except.error.inj h).symm⟩
  | receive m =>
    simp only [next] at h
    split_ifs at h with hc
    exact Or.inr (Or.inl ⟨m, rfl, hc, (Except.error.inj h).symm⟩)
  | expire id channel =>
    simp only [next] at h
    split_ifs at h with hown hr
    obtain ⟨rfl, rfl⟩ := hown
    exact Or.inr (Or.inr (Or.inl ⟨rfl, Nat.le_of_not_lt hr, (Except.error.inj h).symm⟩))
  | close => exact Or.inr (Or.inr (Or.inr ⟨rfl, (Except.error.inj h).symm⟩))

theorem next_ok {p p' : Pending κ} {e : Event κ} (h : p.next e = .ok p') :
    p' = { p with retries := p'.retries } ∧
      (p'.retries = p.retries ∨
        p'.retries = p.retries + 1 ∧ p.retries < p.request.config.maxRetries.toNat) := by
  rcases next_ok_cases h with rfl | ⟨-, hr, rfl⟩
  · exact ⟨rfl, Or.inl rfl⟩
  · exact ⟨rfl, Or.inr ⟨rfl, hr⟩⟩

theorem next_id {p p' : Pending κ} {e : Event κ} (h : p.next e = .ok p') : p'.id = p.id := by
  rw [(next_ok h).1]

theorem next_request {p p' : Pending κ} {e : Event κ} (h : p.next e = .ok p') :
    p'.request = p.request := by
  rw [(next_ok h).1]

theorem next_asker {p p' : Pending κ} {e : Event κ} (h : p.next e = .ok p') :
    p'.asker = p.asker := by
  rw [(next_ok h).1]

end Pending

namespace Handler

def step (h : Handler κ) : Event κ → Turn (Handler κ) κ
  | .add asker r => h.add asker r
  | .receive m => (h.receive? m).getD ⟨h, [], []⟩
  | .expire id channel => h.expire id channel
  | .close => ⟨h.close, [], []⟩

def run (h : Handler κ) : List (Event κ) → Turn (Handler κ) κ
  | [] => ⟨h, [], []⟩
  | e :: rest =>
    let t := h.step e
    let u := t.state.run rest
    ⟨u.state, t.effects ++ u.effects, t.log ++ u.log⟩

@[simp] theorem run_nil_state (h : Handler κ) : (h.run []).state = h := rfl

@[simp] theorem run_nil_effects (h : Handler κ) : (h.run []).effects = [] := rfl

@[simp] theorem run_cons_state (h : Handler κ) (e : Event κ) (rest : List (Event κ)) :
    (h.run (e :: rest)).state = ((h.step e).state.run rest).state := rfl

@[simp] theorem run_cons_effects (h : Handler κ) (e : Event κ) (rest : List (Event κ)) :
    (h.run (e :: rest)).effects = (h.step e).effects ++ ((h.step e).state.run rest).effects := rfl

@[simp] theorem run_append_state (h : Handler κ) (xs ys : List (Event κ)) :
    (h.run (xs ++ ys)).state = ((h.run xs).state.run ys).state := by
  induction xs generalizing h with
  | nil => rfl
  | cons e rest ih => exact ih _

@[simp] theorem run_append_effects (h : Handler κ) (xs ys : List (Event κ)) :
    (h.run (xs ++ ys)).effects = (h.run xs).effects ++ ((h.run xs).state.run ys).effects := by
  induction xs generalizing h with
  | nil => rfl
  | cons e rest ih => simp [ih]

/-! What each event does, seen through look-ups. -/

@[simp] theorem pending?_empty (c : String) : (empty : Handler κ).pending? c = none := rfl

@[simp] theorem step_add_effects (h : Handler κ) (asker : κ) (r : Request) :
    (h.step (.add asker r)).effects = [.send h.nextId r.message] := rfl

@[simp] theorem step_add_nextId (h : Handler κ) (asker : κ) (r : Request) :
    (h.step (.add asker r)).state.nextId = h.nextId + 1 := rfl

@[simp] theorem step_add_pending? (h : Handler κ) (asker : κ) (r : Request) (c : String) :
    (h.step (.add asker r)).state.pending? c =
      if c = r.responseChannel then some ⟨h.nextId, 0, r, asker⟩ else h.pending? c :=
  Ascending.find?_insert _ _ _ _

theorem step_receive_of_some {h : Handler κ} {m : Envelope} {p : Pending κ}
    (hp : h.pending? m.channel = some p) :
    (h.step (.receive m)).state = { h with pending := Ascending.erase m.channel h.pending } ∧
      (h.step (.receive m)).effects = [.call p.id p.asker (some m)] := by
  simp [step, receive?, hp]

theorem step_receive_of_none {h : Handler κ} {m : Envelope} (hp : h.pending? m.channel = none) :
    h.step (.receive m) = ⟨h, [], []⟩ := by
  simp [step, receive?, hp]

@[simp] theorem step_receive_nextId (h : Handler κ) (m : Envelope) :
    (h.step (.receive m)).state.nextId = h.nextId := by
  cases hp : h.pending? m.channel with
  | none => rw [step_receive_of_none hp]
  | some p => rw [(step_receive_of_some hp).1]

@[simp] theorem step_receive_pending? (h : Handler κ) (m : Envelope) (c : String) :
    (h.step (.receive m)).state.pending? c = if c = m.channel then none else h.pending? c := by
  cases hp : h.pending? m.channel with
  | none =>
    rw [step_receive_of_none hp]
    by_cases hc : c = m.channel <;> simp [hc, hp]
  | some p =>
    rw [(step_receive_of_some hp).1]
    exact Ascending.find?_erase _ _ _

/-- A timer finds its request where that waits under the channel of the timer. -/
theorem filter_of_waiting {h : Handler κ} {id : Nat} {c : String} {p : Pending κ}
    (hp : h.pending? c = some p) (hid : p.id = id) :
    (h.pending? c).filter (fun q => q.id = id) = some p := by
  simp [hp, hid]

theorem filter_of_stale {h : Handler κ} {id : Nat} {c : String}
    (hp : ∀ p, h.pending? c = some p → p.id ≠ id) :
    (h.pending? c).filter (fun q => q.id = id) = none := by
  cases hc : h.pending? c with
  | none => rfl
  | some p => simp [hp p hc]

theorem step_expire_of_waiting {h : Handler κ} {c : String} {p : Pending κ}
    (hp : h.pending? c = some p) : h.step (.expire p.id c) = h.repeatOrGiveUp p := by
  simp only [step, expire, filter_of_waiting hp rfl]

theorem step_expire_of_stale {h : Handler κ} {id : Nat} {c : String}
    (hp : ∀ p, h.pending? c = some p → p.id ≠ id) :
    h.step (.expire id c) = ⟨h, [], []⟩ := by
  simp only [step, expire, filter_of_stale hp]

theorem repeatOrGiveUp_resend (h : Handler κ) {p : Pending κ}
    (hr : p.retries < p.request.config.maxRetries.toNat) :
    (h.repeatOrGiveUp p).effects = [.send p.id p.request.message] ∧
      (h.repeatOrGiveUp p).state =
        ⟨Ascending.insert p.request.responseChannel { p with retries := p.retries + 1 } h.pending,
          h.nextId⟩ := by
  simp [repeatOrGiveUp, hr]

theorem repeatOrGiveUp_giveUp (h : Handler κ) {p : Pending κ}
    (hr : ¬ p.retries < p.request.config.maxRetries.toNat) :
    (h.repeatOrGiveUp p).effects = [.call p.id p.asker none] ∧
      (h.repeatOrGiveUp p).state =
        ⟨Ascending.erase p.request.responseChannel h.pending, h.nextId⟩ := by
  simp [repeatOrGiveUp, hr]

@[simp] theorem step_close_effects (h : Handler κ) : (h.step .close).effects = [] := rfl

@[simp] theorem step_close_pending? (h : Handler κ) (c : String) :
    (h.step .close).state.pending? c = none := rfl

@[simp] theorem step_close_nextId (h : Handler κ) : (h.step .close).state.nextId = h.nextId := rfl

@[simp] theorem step_expire_nextId (h : Handler κ) (id : Nat) (c : String) :
    (h.step (.expire id c)).state.nextId = h.nextId := by
  by_cases hp : ∃ p, h.pending? c = some p ∧ p.id = id
  · obtain ⟨p, hp, rfl⟩ := hp
    rw [step_expire_of_waiting hp]
    by_cases hr : p.retries < p.request.config.maxRetries.toNat
    · rw [(repeatOrGiveUp_resend h hr).2]
    · rw [(repeatOrGiveUp_giveUp h hr).2]
  · rw [step_expire_of_stale fun p hc hid => hp ⟨p, hc, hid⟩]

/-- An addition takes one id, any other event none. -/
theorem nextId_step (h : Handler κ) (e : Event κ) :
    (h.step e).state.nextId = h.nextId + e.request?.toList.length := by
  cases e with
  | add asker r => rfl
  | receive m => exact step_receive_nextId h m
  | expire id c => exact step_expire_nextId h id c
  | close => rfl

/-- Ids count the requests of a run. -/
theorem nextId_run (h : Handler κ) (events : List (Event κ)) :
    (h.run events).state.nextId = h.nextId + (requests events).length := by
  induction events generalizing h with
  | nil => rfl
  | cons e rest ih =>
    rw [run_cons_state, ih, nextId_step, requests_cons, List.length_append, Nat.add_assoc]

end Handler
end DeviceLink.Retry
