import DeviceLink.Retry.Handler

/-! Requests in time: every pending request has a timer, and timers run out in their order. Time
stands still while something is done, and of timers that are due at one moment the one that was
started first goes first, an order that a clock need not keep. -/
namespace DeviceLink.Retry

/-- The next moment, in milliseconds, at which a request is looked at again. -/
structure Timer where
  due : Nat
  id : Nat
  channel : String
  deriving DecidableEq, Repr

/-- The timer that runs out first, and the others. -/
def Timer.earliest? : List Timer → Option (Timer × List Timer)
  | [] => none
  | t :: ts =>
    match earliest? ts with
    | none => some (t, [])
    | some (u, others) => if t.due ≤ u.due then some (t, ts) else some (u, t :: others)

/-- One who asks, and the requests that follow, each made when the one before it is over. -/
structure Asker where
  name : String
  next : List (String × Request)
  deriving DecidableEq, Repr

/-- A handler at a moment, with the timers that run. -/
structure Session where
  now : Nat
  handler : Handler Asker
  timers : List Timer
  deriving Repr

/-- The most that can happen for requests that are still to be made. -/
def Request.workAhead : List (String × Request) → Nat
  | [] => 0
  | (_, r) :: rest => r.config.maxRetries.toNat + 1 + workAhead rest

/-- The most that can still happen for pending requests and those that follow them. -/
def Pending.work : List (String × Pending Asker) → Nat
  | [] => 0
  | (_, p) :: rest =>
    p.request.config.maxRetries.toNat - p.retries + 1 + Request.workAhead p.asker.next + work rest

namespace Session

def empty : Session := ⟨0, .empty, []⟩

def andThen (t : Turn Session Asker) (next : Session → Turn Session Asker) :
    Turn Session Asker :=
  let u := next t.state
  ⟨u.state, t.effects ++ u.effects, t.log ++ u.log⟩

def ask (s : Session) (asker : Asker) (r : Request) : Turn Session Asker :=
  let t := s.handler.add asker r
  let timer := ⟨s.now + r.config.interval.toNat, s.handler.nextId, r.responseChannel⟩
  ⟨{ s with handler := t.state, timers := s.timers ++ [timer] }, t.effects, t.log⟩

/-- Adds a request where timers can be started. -/
def ask? (s : Session) (timersRun : Bool) (asker : Asker) (r : Request) :
    Except Refusal (Turn Session Asker) :=
  if timersRun then .ok (s.ask asker r) else .error .noTimers

/-- Those who are told the outcome of a request make the next one at once. -/
def followUp (s : Session) : List (Effect Asker) → Turn Session Asker
  | [] => ⟨s, [], []⟩
  | .send _ _ :: rest => followUp s rest
  | .call _ asker _ :: rest =>
    match asker.next with
    | [] => followUp s rest
    | (name, r) :: next => andThen (s.ask ⟨name, next⟩ r) fun s => followUp s rest

def settle (t : Turn Session Asker) : Turn Session Asker :=
  andThen t fun s => s.followUp t.effects

def receive? (s : Session) (e : Envelope) : Option (Turn Session Asker) :=
  (s.handler.receive? e).map fun t => settle ⟨{ s with handler := t.state }, t.effects, t.log⟩

/-- The next timer of a request, if it is still pending. -/
def rearmed (h : Handler Asker) (t : Timer) : List Timer :=
  match (h.pending? t.channel).filter fun p => p.id = t.id with
  | some p => [{ t with due := t.due + p.request.config.interval.toNat }]
  | none => []

def tick (s : Session) (t : Timer) (others : List Timer) : Turn Session Asker :=
  let e := s.handler.expire t.id t.channel
  settle ⟨⟨t.due, e.state, others ++ rearmed e.state t⟩, e.effects, e.log⟩

/-- Lets timers run out up to a moment, at most as many as the bound says. -/
def runTo (moment : Nat) : Nat → Session → Turn Session Asker
  | 0, s => ⟨{ s with now := moment }, [], []⟩
  | bound + 1, s =>
    match Timer.earliest? s.timers with
    | none => ⟨{ s with now := moment }, [], []⟩
    | some (t, others) =>
      if moment < t.due then ⟨{ s with now := moment }, [], []⟩
      else andThen (s.tick t others) (runTo moment bound)

/-- A bound on the timers that can run out before nothing is pending. -/
def work (s : Session) : Nat := Pending.work s.handler.pending + s.timers.length

def sleep (s : Session) (milliseconds : Nat) : Turn Session Asker :=
  runTo (s.now + milliseconds) s.work s

def close (s : Session) : Session := { s with handler := s.handler.close }

end Session
end DeviceLink.Retry
