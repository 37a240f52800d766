import DeviceLink.Codec.Payload
import DeviceLink.Codec.Scalar

/-! The JSON records that messages are made of. -/
namespace DeviceLink

structure FeedRecord where
  name : String
  reference : String
  type : String
  unit : String
  deriving DecidableEq, Repr

namespace FeedRecord

def shape : Json.Shape FeedRecord :=
  .refine
    (.record (.required "name" .text (.required "reference" .text (.required "type" .text
      (.defaulted "unitGuid" .text .nil)))))
    (fun (name, reference, type, unit, ()) => .ok ⟨name, reference, type, unit.getD ""⟩)
    fun f => (f.name, f.reference, f.type, some f.unit, ())

def ofFeed (f : Feed) : FeedRecord := ⟨f.name, f.reference, f.type.token, f.unit⟩

def toFeed (f : FeedRecord) : Except CodecError Feed :=
  (Feed.ofTokens? f.name f.reference f.type f.unit).mapError .violation

end FeedRecord

structure AttributeRecord where
  name : String
  type : String
  value : String
  deriving DecidableEq, Repr

namespace AttributeRecord

def shape : Json.Shape AttributeRecord :=
  .refine
    (.record (.required "name" .text (.required "dataType" .text (.required "value" .text .nil))))
    (fun (name, type, value, ()) => .ok ⟨name, type, value⟩)
    fun a => (a.name, a.type, a.value, ())

def ofAttribute (a : Attribute) : AttributeRecord := ⟨a.name, a.type.token, a.value⟩

def toAttribute (a : AttributeRecord) : Except CodecError Attribute :=
  (Attribute.ofTokens? a.name a.type a.value).mapError .violation

end AttributeRecord

structure DeviceRecord where
  name : String
  key : String
  guid : String
  /-- Parameter values by token, in ascending order. -/
  parameters : List (String × Json)
  feeds : List FeedRecord
  attributes : List AttributeRecord
  deriving Repr

namespace DeviceRecord

def shape : Json.Shape DeviceRecord :=
  .refine
    (.record (.required "name" .text (.required "key" .text (.required "guid" .text
      (.defaulted "parameters" (.dictionary some id .any)
        (.defaulted "feeds" (.list FeedRecord.shape)
          (.defaulted "attributes" (.list AttributeRecord.shape) .nil)))))))
    (fun (name, key, guid, parameters, feeds, attributes, ()) =>
      .ok ⟨name, key, guid, Ascending.ofList (parameters.getD []), feeds.getD [],
        attributes.getD []⟩)
    fun d => (d.name, d.key, d.guid, some d.parameters, some d.feeds, some d.attributes, ())

def ofDevice (d : Device) : DeviceRecord where
  name := d.name
  key := d.key
  guid := d.guid
  parameters := Ascending.ofList (d.parameters.entries.map fun p => (p.1.token, Value.toJson p.2))
  feeds := d.feeds.map .ofFeed
  attributes := d.attributes.map .ofAttribute

def toParameter (entry : String × Json) : Except CodecError (ParameterName × String) := do
  let name ← Payload.parameter entry.1
  match Value.ofJson? entry.2 with
  | some v => .ok (name, v)
  | none => .error (.invalidField "parameters" (.notScalar entry.1))

/-- The device; name and key come first, then parameters, feeds and attributes. -/
def toDevice (d : DeviceRecord) : Except CodecError Device := do
  Payload.require "device name" d.name
  Payload.require "device key" d.key
  let parameters ← d.parameters.mapM toParameter
  let feeds ← d.feeds.mapM FeedRecord.toFeed
  let attributes ← d.attributes.mapM AttributeRecord.toAttribute
  .ok ⟨d.name, d.key, d.guid, .ofList parameters, feeds, attributes⟩

def list : Json.Shape (List DeviceRecord) :=
  .refine (.record (.required "devices" (.list shape) .nil)) (fun (devices, ()) => .ok devices)
    fun devices => (devices, ())

end DeviceRecord

def RegisteredDevice.shape : Json.Shape RegisteredDevice :=
  .refine
    (.record (.required "deviceKey" .text (.defaulted "externalId" .text
      (.defaulted "deviceType" .text .nil))))
    (fun (key, id, type, ()) => .ok ⟨key, id.getD "", type.getD ""⟩)
    fun d => (d.deviceKey, some d.externalId, some d.deviceType, ())

/-- A look-up with the devices found, which only its answer has. -/
def DeviceQuery.shape : Json.Shape (DeviceQuery × Option (List RegisteredDevice)) :=
  .refine
    (.record (.required "timestampFrom" .uint64 (.nullable "deviceType" .text
      (.nullable "externalId" .text
        (.nullable "matchingDevices" (.list RegisteredDevice.shape) .nil)))))
    (fun (since, type, id, devices, ()) => .ok (⟨since, type, id⟩, devices))
    fun (q, devices) => (q.timestampFrom, q.deviceType, q.externalId, devices, ())

def registrationResult : Json.Shape (List String × List String) :=
  .refine
    (.record (.defaulted "success" (.list .text) (.defaulted "failed" (.list .text) .nil)))
    (fun (success, failed, ()) => .ok (success.getD [], failed.getD []))
    fun (success, failed) => (some success, some failed, ())

end DeviceLink
