import DeviceLink.Proofs.Retry.Fate
import DeviceLink.Proofs.Retry.Tracking

/-! When a request is sent: once an interval from the moment it is made, as long as it waits and
repetitions are left. -/
namespace DeviceLink.Retry.Session

/-- A request that is made while commands are carried out, with what happens before and after. -/
structure Asked (commands : List Command) where
  before : List (Nat × Event Asker)
  moment : Nat
  asker : Asker
  request : Request
  after : List (Nat × Event Asker)
  history_eq : history empty commands = before ++ (moment, .add asker request) :: after

namespace Asked

variable {commands : List Command}

def addition (a : Asked commands) : Addition Asker :=
  ⟨a.before.map Prod.snd, a.asker, a.request, a.after.map Prod.snd⟩

def due (a : Asked commands) (k : Nat) : Nat := a.request.due a.moment k

/-- What is done on behalf of the request until some of the later events have happened. -/
def done (a : Asked commands) (later : List (Nat × Event Asker)) : List (Nat × Effect Asker) :=
  effectsAt a.addition.id
    (Handler.empty.timeline (a.before ++ (a.moment, .add a.asker a.request) :: later))

def sends (a : Asked commands) (n : Nat) : List (Nat × Effect Asker) :=
  (List.range (n + 1)).map fun k => (a.due k, .send a.addition.id a.request.message)

/-- What is done on behalf of the request in all, and when, up to each of its fates. -/
inductive Course (a : Asked commands) : Fate → Prop
  /-- The next sending is ahead. -/
  | pending {n : Nat} :
      a.addition.Waits (a.after.map Prod.snd) n →
      a.due n ≤ (empty.performAll commands).state.now →
      (empty.performAll commands).state.now < a.due (n + 1) →
      Course a .pending
  /-- The timer runs out one interval after the last repetition. -/
  | exhausted {mid rest : List (Nat × Event Asker)} :
      a.after = mid ++ (a.due (a.request.config.maxRetries.toNat + 1),
        .expire a.addition.id a.request.responseChannel) :: rest →
      a.addition.Waits (mid.map Prod.snd) a.request.config.maxRetries.toNat →
      a.done a.after = a.sends a.request.config.maxRetries.toNat ++
        [(a.due (a.request.config.maxRetries.toNat + 1), .call a.addition.id a.asker none)] →
      Course a .exhausted
  /-- Another event comes before the next sending. -/
  | ended {mid rest : List (Nat × Event Asker)} {x : Nat × Event Asker} {n : Nat} {f : Fate} :
      a.after = mid ++ x :: rest →
      a.addition.Waits (mid.map Prod.snd) n →
      (a.addition.entry n).next x.2 = .error f →
      f ≠ .exhausted →
      a.done a.after = a.sends n ++ (f.effects (a.addition.entry n)).map (x.1, ·) →
      a.due n ≤ x.1 →
      x.1 ≤ a.due (n + 1) →
      Course a f

structure OnSchedule (a : Asked commands) : Prop where
  /-- What the session does is what happens in its history. -/
  effects : (Handler.empty.timeline (history empty commands)).map Prod.snd =
    (empty.performAll commands).effects
  /-- While the request waits, it has been sent once for each repetition counted, when due. -/
  waiting : ∀ mid rest n, a.after = mid ++ rest → a.addition.Waits (mid.map Prod.snd) n →
    n ≤ a.request.config.maxRetries.toNat ∧ a.done mid = a.sends n
  course : ∃ f, a.addition.Meets f ∧ a.Course f
  /-- The id of the request is the number of those made before it, of 64 bits for the first
  `2 ^ 64`. -/
  numbered : a.addition.id = (requests (a.before.map Prod.snd)).length

theorem exists_added (a : Asked commands) : ∃ s : Session, Ready s ∧
    s.handler = ((Handler.empty.run a.addition.before).state.step
      (.add a.addition.asker a.addition.request)).state ∧
    Lapse s a.after (empty.performAll commands).state ∧
    Tracks s a.moment (a.addition.entry 0) := by
  have hall := (follows_performAll (s := empty) Handler.sound_empty commands).1
  rw [a.history_eq] at hall
  obtain ⟨m, hm, hrest⟩ := hall.split
  obtain ⟨s, s', hs, hadd, hafter⟩ := hrest.cons_inv
  have hready : Ready s := (ready_empty.lapse hm).lapse hs
  have hhandler : s.handler = (Handler.empty.run a.addition.before).state := by
    rw [hs.handler, hm.handler]
    rfl
  have htracks := hready.tracks_add hadd
  rw [hhandler] at htracks
  refine ⟨s', hready.step hadd, ?_, hafter, htracks⟩
  rw [hadd.handler, hhandler]
  rfl

/-- What is done on behalf of a request begins with the first sending. -/
theorem done_eq (a : Asked commands) {s : Session}
    (hs : s.handler = ((Handler.empty.run a.addition.before).state.step
      (.add a.addition.asker a.addition.request)).state) (later : List (Nat × Event Asker)) :
    a.done later =
      a.sends 0 ++ effectsAt a.addition.id (s.handler.timeline later) := by
  have hbefore : effectsAt a.addition.id (Handler.empty.timeline a.before) = [] :=
    Handler.effectsAt_timeline_eq_nil a.addition.effectsOf_before
  have hadded := congrArg (List.map (a.moment, ·)) a.addition.effectsOf_added
  rw [← effectsAt_map] at hadded
  unfold done
  rw [Handler.timeline_append, effectsAt_append, hbefore, List.nil_append, Handler.timeline,
    effectsAt_append]
  refine congrArg₂ (· ++ ·) (hadded.trans ?_) ?_
  · simp [sends, due, Request.due, addition]
  · rw [hs]
    rfl

/-- While the request waits, it is sent at every moment at which it is due and at no other. -/
theorem done_of_waits (a : Asked commands) {mid rest : List (Nat × Event Asker)} {n : Nat}
    (hsplit : a.after = mid ++ rest) (hw : a.addition.Waits (mid.map Prod.snd) n) :
    n ≤ a.request.config.maxRetries.toNat ∧ a.done mid = a.sends n := by
  obtain ⟨s, hready, hs, hlapse, htracks⟩ := a.exists_added
  rw [hsplit] at hlapse
  obtain ⟨m, hm, -⟩ := hlapse.split
  obtain ⟨htracks', hsends⟩ := htracks.lapse hready hm ((a.addition.waits_iff _ _).mp hw)
  refine ⟨(hready.lapse hm).sound.bounded htracks'.waits, ?_⟩
  rw [a.done_eq hs]
  exact hsends.symm

/-- The request still waits, and its next sending is ahead. -/
theorem due_of_waits (a : Asked commands) {n : Nat}
    (hw : a.addition.Waits (a.after.map Prod.snd) n) (hI : 0 < a.request.config.interval.toNat) :
    a.due n ≤ (empty.performAll commands).state.now ∧
      (empty.performAll commands).state.now < a.due (n + 1) := by
  obtain ⟨s, hready, hs, hlapse, htracks⟩ := a.exists_added
  obtain ⟨htracks', -⟩ := htracks.lapse hready hlapse ((a.addition.waits_iff _ _).mp hw)
  have hcalm : Calm (empty.performAll commands).state :=
    calm_performAll (calm_of_lt (by simp [empty])) ready_empty commands
  exact ⟨htracks'.since, hcalm _ _ htracks'.waits hI _ htracks'.mem_timers rfl⟩

/-- The event that ends the waiting comes no later than the next sending is due, and nothing is
done on behalf of the request after it. -/
theorem done_of_next (a : Asked commands) {mid rest : List (Nat × Event Asker)}
    {x : Nat × Event Asker} {n : Nat} {f : Fate} (hsplit : a.after = mid ++ x :: rest)
    (hw : a.addition.Waits (mid.map Prod.snd) n) (hn : (a.addition.entry n).next x.2 = .error f) :
    a.done a.after = a.sends n ++ (f.effects (a.addition.entry n)).map (x.1, ·) ∧
      a.due n ≤ x.1 ∧ x.1 ≤ a.due (n + 1) ∧
      (f = .exhausted →
        n = a.request.config.maxRetries.toNat ∧ x.1 = a.due (n + 1)) := by
  obtain ⟨s, hready, hs, hlapse, htracks⟩ := a.exists_added
  rw [hsplit] at hlapse
  obtain ⟨m, hm, hrest⟩ := hlapse.split
  obtain ⟨m₁, m₂, hwait, hx, -⟩ := hrest.cons_inv
  obtain ⟨htracks', hsends⟩ := htracks.lapse hready hm ((a.addition.waits_iff _ _).mp hw)
  have hready' : Ready m₁ := (hready.lapse hm).lapse hwait
  have htracks'' : Tracks m₁ a.moment (a.addition.entry n) :=
    (htracks'.lapse (hready.lapse hm) hwait rfl).1
  have hle := htracks''.step_le hready' hx
  obtain ⟨heff, hgone⟩ := (hready.lapse hm).sound.waiting_step htracks'.waits x.2
  rw [hn] at hgone
  refine ⟨?_, hle.1, hle.2, ?_⟩
  · have hmid : a.sends 0 ++ effectsAt a.addition.id (s.handler.timeline mid) = a.sends n :=
      hsends.symm
    have hacts : (a.addition.entry n).acts x.2 = f.effects (a.addition.entry n) := by
      simp only [Pending.acts, hn]
    have hend : effectsOf a.addition.id (m.handler.step x.2).effects =
        f.effects (a.addition.entry n) := heff.trans hacts
    have hnone : effectsAt a.addition.id ((m.handler.step x.2).state.timeline rest) = [] :=
      Handler.effectsAt_timeline_eq_nil
        (((hready.lapse hm).sound.step x.2).gone_run hgone (rest.map Prod.snd)).2
    obtain ⟨te, e⟩ := x
    rw [a.done_eq hs, hsplit, Handler.timeline_append, effectsAt_append, ← hm.handler,
      Handler.timeline, effectsAt_append, effectsAt_map, ← List.append_assoc, hmid, hend, hnone,
      List.append_nil]
  · rintro rfl
    obtain ⟨he, hmax⟩ := Pending.eq_of_next_exhausted hn
    have hbounded := hready'.sound.bounded htracks''.waits
    exact ⟨Nat.le_antisymm hbounded hmax, htracks''.step_expire hx he⟩

private theorem course_of_next (a : Asked commands) {mid rest : List (Nat × Event Asker)}
    {x : Nat × Event Asker} {n : Nat} {f : Fate} (hsplit : a.after = mid ++ x :: rest)
    (hw : a.addition.Waits (mid.map Prod.snd) n) (hn : (a.addition.entry n).next x.2 = .error f) :
    a.Course f := by
  obtain ⟨hdone, hlo, hhi, hexhausted⟩ := a.done_of_next hsplit hw hn
  by_cases hf : f = .exhausted
  · subst hf
    obtain ⟨rfl, hmoment⟩ := hexhausted rfl
    obtain ⟨he, -⟩ := Pending.eq_of_next_exhausted hn
    have hx : x = (a.due (a.request.config.maxRetries.toNat + 1),
        .expire a.addition.id a.request.responseChannel) := Prod.ext hmoment he
    rw [hmoment] at hdone
    exact .exhausted (hx ▸ hsplit) hw hdone
  · exact .ended hsplit hw hn hf hdone hlo hhi

/-- A request is sent when it is made and once an interval from then on, as long as it waits and
repetitions are left; one interval after the last one its asker is told that no answer came. -/
theorem sent_on_schedule (a : Asked commands) (hI : 0 < a.request.config.interval.toNat) :
    a.OnSchedule where
  effects := by
    rw [Handler.timeline_map_snd]
    exact (follows_performAll (s := empty) Handler.sound_empty commands).2.symm
  waiting mid rest n := a.done_of_waits
  course := by
    cases ho : (a.addition.entry 0).after (a.after.map Prod.snd) with
    | ok p =>
      have hw := Addition.exists_waits ho
      obtain ⟨hlo, hhi⟩ := a.due_of_waits hw hI
      exact ⟨.pending, .pending hw, .pending hw hlo hhi⟩
    | error f =>
      obtain ⟨mid', e', rest', p, heq, hmid, hn⟩ := Pending.after_eq_error_iff.mp ho
      obtain ⟨mid, tail, hsplit, rfl, htail⟩ := List.map_eq_append_iff.mp heq
      obtain ⟨x, rest, rfl, rfl, rfl⟩ := List.map_eq_cons_iff.mp htail
      have hw := Addition.exists_waits hmid
      have hp : p = a.addition.entry p.retries := Pending.after_ok hmid
      have hmeets : a.addition.Meets f := Addition.meets_of_next heq hmid hn
      rw [hp] at hn
      exact ⟨f, hmeets, a.course_of_next hsplit hw hn⟩
  numbered := a.addition.id_eq_length

/-- One repetition after ten milliseconds, and no answer after ten more. -/
theorem sent_on_schedule_unanswered :
    ∃ a : Asked [.ask true ⟨"device", []⟩ ⟨⟨"d2p/pull", []⟩, "p2d/pull", ⟨1, 10⟩⟩, .sleep 35],
      0 < a.request.config.interval.toNat ∧
      a.done a.after = [(0, .send 0 ⟨"d2p/pull", []⟩), (10, .send 0 ⟨"d2p/pull", []⟩),
        (20, .call 0 ⟨"device", []⟩ none)] ∧
      a.OnSchedule := by
  refine ⟨⟨[], 0, ⟨"device", []⟩, ⟨⟨"d2p/pull", []⟩, "p2d/pull", ⟨1, 10⟩⟩,
    [(10, .expire 0 "p2d/pull"), (20, .expire 0 "p2d/pull")], by decide⟩, ?_, ?_, ?_⟩
  · decide
  · decide
  · exact sent_on_schedule _ (by decide)

end Asked
end DeviceLink.Retry.Session
