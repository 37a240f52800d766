import DeviceLink.Feed
import DeviceLink.Parameter

/-! Subdevices as they are registered and looked up. -/
namespace DeviceLink

structure Device where
  name : String
  key : String
  /-- The template of the device on the platform. -/
  guid : String
  parameters : ParameterTable
  feeds : List Feed
  attributes : List Attribute
  deriving DecidableEq, Repr

namespace Device

def stored : Json.Shape Device :=
  .refine
    (.record (.required "name" .text (.required "key" .text (.required "guid" .text
      (.required "parameters" (.dictionary ParameterName.ofToken? ParameterName.token .text)
        (.required "feeds" (.list Feed.stored)
          (.required "attributes" (.list Attribute.stored) .nil)))))))
    (fun (name, key, guid, parameters, feeds, attributes, ()) =>
      .ok ⟨name, key, guid, .ofList parameters, feeds, attributes⟩)
    fun d => (d.name, d.key, d.guid, d.parameters.entries, d.feeds, d.attributes, ())

end Device

structure RegisteredDevice where
  deviceKey : String
  externalId : String
  deviceType : String
  deriving DecidableEq, Repr

namespace RegisteredDevice

def stored : Json.Shape RegisteredDevice :=
  .refine
    (.record (.required "device_key" .text (.required "external_id" .text
      (.required "device_type" .text .nil))))
    (fun (key, id, type, ()) => .ok ⟨key, id, type⟩)
    fun d => (d.deviceKey, d.externalId, d.deviceType, ())

end RegisteredDevice

/-- What a look-up asks for: devices registered since a time, perhaps of one type or identifier. -/
structure DeviceQuery where
  timestampFrom : UInt64
  deviceType : Option String
  externalId : Option String
  deriving DecidableEq, Repr

end DeviceLink
