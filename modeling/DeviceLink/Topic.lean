import DeviceLink.MessageType

/-! Channels: `direction/device key/type`, taken apart and put together. -/
namespace DeviceLink

/-- The kind of endpoint that a channel belongs to. -/
inductive DeviceType
  | none
  | standalone
  | gateway
  deriving DecidableEq, Repr

namespace DeviceType

def all : List DeviceType := [.none, .standalone, .gateway]

def name : DeviceType → String
  | .none => "NONE"
  | .standalone => "STANDALONE"
  | .gateway => "GATEWAY"

def ofName? (name : String) : Option DeviceType := all.find? fun t => t.name = name

end DeviceType

/-- Which way a channel flows. -/
inductive Direction
  | deviceToPlatform
  | platformToDevice
  | gatewayToPlatform
  | platformToGateway
  deriving DecidableEq, Repr

namespace Direction

def all : List Direction :=
  [.deviceToPlatform, .platformToDevice, .gatewayToPlatform, .platformToGateway]

def token : Direction → String
  | .deviceToPlatform => "d2p"
  | .platformToDevice => "p2d"
  | .gatewayToPlatform => "g2p"
  | .platformToGateway => "p2g"

def ofToken? (token : String) : Option Direction := all.find? fun d => d.token = token

def deviceType : Direction → DeviceType
  | .deviceToPlatform | .platformToDevice => .standalone
  | .gatewayToPlatform | .platformToGateway => .gateway

end Direction

namespace Topic

/-- What stands before the first slash, or the whole channel. -/
def firstSegment (channel : List Char) : List Char := channel.takeWhile (· != '/')

/-- What stands after the last slash, or the whole channel. -/
def lastSegment (channel : List Char) : List Char :=
  (channel.reverse.takeWhile (· != '/')).reverse

/-- What stands strictly between the first slash and the last; nothing where they are one. -/
def middle (channel : List Char) : List Char :=
  match channel.dropWhile (· != '/') with
  | [] => []
  | _ :: rest => ((rest.reverse.dropWhile (· != '/')).drop 1).reverse

/-- What the slashes of a channel separate, from the first segment to the last. -/
def segments : List Char → List (List Char)
  | [] => [[]]
  | c :: rest =>
    if c = '/' then [] :: segments rest
    else match segments rest with
      | [] => [[c]]
      | s :: others => (c :: s) :: others

def direction? (channel : String) : Option Direction :=
  Direction.ofToken? (String.ofList (firstSegment channel.toList))

def messageType (channel : String) : MessageType :=
  .ofToken (String.ofList (lastSegment channel.toList))

/-- The kind of message that the last segment of a channel names. -/
def carriedType (channel : String) : MessageType :=
  .ofToken (String.ofList ((segments channel.toList).getLastD []))

def deviceType (channel : String) : DeviceType :=
  ((direction? channel).map Direction.deviceType).getD .none

/-- The device that a channel names, which may contain slashes. -/
def deviceKey (channel : String) : String := String.ofList (middle channel.toList)

def channel (direction : Direction) (key : String) (type : MessageType) : String :=
  direction.token ++ "/" ++ key ++ "/" ++ type.token

/-- The subscription to every kind of message of one device. -/
def wildcard (direction : Direction) (key : String) : String :=
  direction.token ++ "/" ++ key ++ "/+"

end Topic
end DeviceLink
