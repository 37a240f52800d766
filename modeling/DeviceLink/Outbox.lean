import DeviceLink.Envelope
import DeviceLink.Log

/-! The way of messages from those who send to the one who transports. -/
namespace DeviceLink

/-- Messages on the way, the oldest first; a closed outbox has none and takes none. -/
inductive Outbox
  | opened (messages : List Envelope)
  | closed
  deriving DecidableEq, Repr

namespace Outbox

def empty : Outbox := .opened []

/-- Sends a message; one sent to a closed outbox is lost, which is reported. -/
def send (e : Envelope) : Outbox → Logged Outbox
  | .opened messages => ⟨.opened (messages ++ [e]), []⟩
  | .closed => ⟨.closed, [⟨.warn, "Outbound channel closed, dropping message", []⟩]⟩

def receive : Outbox → Outbox × Option Envelope
  | .opened (e :: messages) => (.opened messages, some e)
  | o => (o, none)

/-- Drops what is on the way, and all that will be sent. -/
def close (_ : Outbox) : Outbox := .closed

def isClosed : Outbox → Bool
  | .opened _ => false
  | .closed => true

end Outbox
end DeviceLink
