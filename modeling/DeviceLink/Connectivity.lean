/-! The connection of a gateway to the platform, as its devices are told. -/
namespace DeviceLink

inductive ConnectivityStatus
  /-- Not yet determined; it has no token. -/
  | none
  | connected
  | offline
  deriving DecidableEq, Repr

namespace ConnectivityStatus

def all : List ConnectivityStatus := [.none, .connected, .offline]

/-- The word announced to devices. -/
def token : ConnectivityStatus → String
  | .none => ""
  | .connected => "CONNECTED"
  | .offline => "OFFLINE"

def ofToken? (token : String) : Option ConnectivityStatus :=
  [connected, offline].find? fun s => s.token = token

/-- The name of a status in stored values. -/
def name : ConnectivityStatus → String
  | .none => "NONE"
  | .connected => "CONNECTED"
  | .offline => "OFFLINE"

def ofName? (name : String) : Option ConnectivityStatus := all.find? fun s => s.name = name

end ConnectivityStatus
end DeviceLink
