import DeviceLink.Ascending
import DeviceLink.Envelope
import DeviceLink.Log
import DeviceLink.Settings

/-! Requests that are sent again until they are answered, matched with their answers by the channel
on which each answer arrives. An operation is one step together with what it sends and whom it
tells; what others could do to the handler in between is left out. -/
namespace DeviceLink.Retry

/-- A message that is answered on a channel of its own. -/
structure Request where
  message : Envelope
  responseChannel : String
  config : RetryConfig
  deriving DecidableEq, Repr

/-- A request that has not been answered yet, and the one who asked. -/
structure Pending (κ : Type) where
  /-- Tells the request from others that waited on the same channel before. -/
  id : Nat
  /-- How often the message was sent again. -/
  retries : Nat
  request : Request
  asker : κ
  deriving DecidableEq, Repr

/-- What a handler does to the outside. -/
inductive Effect (κ : Type)
  /-- Sends the message of a request. -/
  | send (id : Nat) (message : Envelope)
  /-- Tells the one who asked what came of a request: the answer, or that none came. -/
  | call (id : Nat) (asker : κ) (response : Option Envelope)
  deriving DecidableEq, Repr

/-- A state after an event, with what was done and reported. -/
structure Turn (σ κ : Type) where
  state : σ
  effects : List (Effect κ)
  log : List LogEntry
  deriving Repr

/-- The pending requests by response channel, at most one a channel. -/
structure Handler (κ : Type) where
  pending : List (String × Pending κ)
  /-- The id of the next request. Ids are counted without an end; a counter of 64 bits gives the
  same ids to the first 2^64 requests. -/
  nextId : Nat
  deriving Repr

inductive Refusal
  /-- Nothing is there to run timers. -/
  | noTimers
  deriving DecidableEq, Repr

def Refusal.message : Refusal → String
  | .noTimers => "No Tokio runtime available to drive retry timers"

namespace Handler

variable {κ : Type}

def empty : Handler κ := ⟨[], 0⟩

def pending? (h : Handler κ) (channel : String) : Option (Pending κ) :=
  Ascending.find? channel h.pending

def isPending (h : Handler κ) (channel : String) : Bool := (h.pending? channel).isSome

def size (h : Handler κ) : Nat := h.pending.length

/-- Sends a request and waits for its answer. A request that waits on the same channel is given
up, and its asker is never told. -/
def add (h : Handler κ) (asker : κ) (r : Request) : Turn (Handler κ) κ :=
  let replaced :=
    if h.isPending r.responseChannel then
      [⟨.warn, "Replacing pending request waiting on the same response channel",
        [("channel", .text r.responseChannel)]⟩]
    else []
  ⟨⟨Ascending.insert r.responseChannel ⟨h.nextId, 0, r, asker⟩ h.pending, h.nextId + 1⟩,
    [.send h.nextId r.message],
    replaced ++ [⟨.debug, "Sending request awaiting response",
      [("channel", .text r.message.channel), ("response_channel", .text r.responseChannel),
        ("max_retries", .number r.config.maxRetries.toNat)]⟩]⟩

/-- Takes a message as the answer to the request that waits on its channel, if one does. -/
def receive? (h : Handler κ) (e : Envelope) : Option (Turn (Handler κ) κ) :=
  (h.pending? e.channel).map fun p =>
    ⟨{ h with pending := Ascending.erase e.channel h.pending },
      [.call p.id p.asker (some e)],
      [⟨.debug, "Response received for pending request",
        [("channel", .text e.channel), ("retries", .number p.retries)]⟩]⟩

/-- Sends a pending request again, or gives it up when that was done often enough. -/
def repeatOrGiveUp (h : Handler κ) (p : Pending κ) : Turn (Handler κ) κ :=
  let r := p.request
  if p.retries < r.config.maxRetries.toNat then
    ⟨{ h with
        pending := Ascending.insert r.responseChannel { p with retries := p.retries + 1 }
          h.pending },
      [.send p.id r.message],
      [⟨.debug, "Resending request", [("channel", .text r.message.channel)]⟩]⟩
  else
    ⟨{ h with pending := Ascending.erase r.responseChannel h.pending },
      [.call p.id p.asker none],
      [⟨.warn, "No response received, giving up",
        [("channel", .text r.message.channel), ("response_channel", .text r.responseChannel),
          ("max_retries", .number r.config.maxRetries.toNat)]⟩]⟩

/-- The timer of a request runs out. If the request is no longer pending, nothing happens, whoever
waits on its channel by now. -/
def expire (h : Handler κ) (id : Nat) (channel : String) : Turn (Handler κ) κ :=
  match (h.pending? channel).filter fun p => p.id = id with
  | some p => h.repeatOrGiveUp p
  | none => ⟨h, [], []⟩

/-- Gives up all requests without telling anyone. -/
def close (h : Handler κ) : Handler κ := { h with pending := [] }

end Handler
end DeviceLink.Retry
