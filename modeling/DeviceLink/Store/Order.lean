import DeviceLink.Json.Shape

/-! The order in which stored messages are taken out. -/
namespace DeviceLink.Store

/-- Which end of the stored messages is next. -/
inductive Order
  /-- The oldest message is next. -/
  | fifo
  /-- The newest message is next. -/
  | lifo
  deriving DecidableEq, Repr

namespace Order

def token : Order → String
  | .fifo => "fifo"
  | .lifo => "lifo"

def ofToken? : String → Option Order
  | "fifo" => some .fifo
  | "lifo" => some .lifo
  | _ => none

/-- The item that is next, of items from the oldest to the newest. -/
def next? {α : Type} : Order → List α → Option α
  | .fifo, items => items.head?
  | .lifo, items => items.getLast?

def rest {α : Type} : Order → List α → List α
  | .fifo, items => items.tail
  | .lifo, items => items.dropLast

end Order
end DeviceLink.Store
