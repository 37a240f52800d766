import DeviceLink.Envelope

/-! Messages waiting in memory, the oldest first. -/
namespace DeviceLink.Store

structure Memory where
  messages : List Envelope
  deriving DecidableEq, Repr

namespace Memory

def empty : Memory := ⟨[]⟩

def push (q : Memory) (e : Envelope) : Memory := ⟨q.messages ++ [e]⟩

/-- Stores a message, and tells whether that succeeded: in memory it always does. -/
def offer (q : Memory) (e : Envelope) : Memory × Bool := (q.push e, true)

def pop (q : Memory) : Memory := ⟨q.messages.tail⟩

def front (q : Memory) : Option Envelope := q.messages.head?

def drain (q : Memory) : Memory × List Envelope := (empty, q.messages)

def size (q : Memory) : Nat := q.messages.length

def isEmpty (q : Memory) : Bool := q.messages.isEmpty

end Memory
end DeviceLink.Store
