/-! Log entries: what the library reports while it works, as values. Details in the words of the
system are left out: the path of an opened directory (`dir`), and why one of its files could not be
written, read or removed (`error`). -/
namespace DeviceLink

inductive LogLevel
  | error
  | warn
  | debug
  deriving DecidableEq, Repr

def LogLevel.name : LogLevel → String
  | .error => "ERROR"
  | .warn => "WARN"
  | .debug => "DEBUG"

inductive LogDetail
  | text (s : String)
  | number (n : Nat)
  deriving DecidableEq, Repr

structure LogEntry where
  level : LogLevel
  message : String
  details : List (String × LogDetail)
  deriving DecidableEq, Repr

/-- A result with the entries reported on the way to it. -/
structure Logged (α : Type) where
  value : α
  log : List LogEntry
  deriving Repr

end DeviceLink
