import DeviceLink.Codec.Record

/-! Device data: feed values, feeds, attributes, parameters and time. -/
namespace DeviceLink.Data

/-- The member of a group of readings that tells their time; no feed may have this reference. -/
def timestampName : String := "timestamp"

/-- The value of a reading: an array if there are several. -/
def readingValue (r : Reading) : Json :=
  if r.isMulti then .array (r.values.map Value.toJson) else Value.toJson r.value

/-- Readings grouped by their time, as members of one object each. -/
abbrev Groups := List (UInt64 × List (String × Json))

/-- Adds a reading to the group of its time; a later reading of the same feed replaces it. -/
def addReading (groups : Groups) (r : Reading) : Except CodecError Groups := do
  Payload.require "reading reference" r.reference
  if r.reference = timestampName then
    .error (.invalidField "reading reference" (.reserved timestampName))
  else if r.values = [] then .error (.missingField "reading values")
  else
    let start := [(timestampName, Json.ofNat r.timestamp.toNat)]
    let group := (Ascending.find? r.timestamp groups).getD start
    .ok (Ascending.insert r.timestamp (Ascending.insert r.reference (readingValue r) group) groups)

/-- One object for each time, in ascending order. -/
def feedValuesJson (readings : List Reading) : Except CodecError Json :=
  if readings = [] then .error (.missingField "readings")
  else do
    let groups ← readings.foldlM addReading []
    .ok (.array (groups.map fun g => .object g.2))

/-- The text of a list that must not be empty. -/
def listText {α : Type} (field : String) (shape : Json.Shape α) (l : List α) :
    Except CodecError String :=
  if l.isEmpty then .error (.missingField field) else .ok ((Json.Shape.list shape).render l)

/-- Parameters by token; the last value of a repeated name is sent. -/
def parametersJson (parameters : List (ParameterName × String)) : Json :=
  .object (Ascending.ofList (parameters.map fun p => (p.1.token, Value.toJson p.2)))

def payload : Message → Except CodecError String
  | .feedValues readings => do
    let v ← feedValuesJson readings
    .ok v.text
  | .feedRegistration feeds => listText "feeds" FeedRecord.shape (feeds.map .ofFeed)
  | .feedRemoval references =>
    if references = [] then .error (.missingField "references")
    else do
      references.forM (Payload.require "feed reference")
      .ok (Json.strings references).text
  | .attributeRegistration attributes =>
    listText "attributes" AttributeRecord.shape (attributes.map .ofAttribute)
  | .parametersUpdate parameters =>
    if parameters = [] then .error (.missingField "parameters")
    else .ok (parametersJson parameters).text
  | .synchronizeParameters names =>
    if names = [] then .error (.missingField "parameters")
    else .ok (Json.strings (names.map ParameterName.token)).text
  | .pullFeedValues | .parametersPull | .detailsSynchronizationRequest => .ok ""
  | m => .error (.unsupported m.type)

def memberText (reference : String) : Json → Except CodecError String
  | .number n => .ok (String.ofList n.chars)
  | _ => .error (.invalidField "feed values" (.nonNumericMember reference))

def readingOf (timestamp : UInt64) (reference : String) (v : Json) : Except CodecError Reading :=
  match v with
  | .array items => do
    let values ← items.mapM (memberText reference)
    (Reading.ofValues? reference values timestamp).mapError .violation
  | v =>
    match Value.ofJson? v with
    | some text => .ok (.single reference text timestamp)
    | none => .error (.invalidField "feed values" (.unsupportedValue reference))

/-- The readings of one group, in the order of its members. -/
def readingsOfGroup : Json → Except CodecError (List Reading)
  | .object members =>
    match (Ascending.find? timestampName members).bind Json.natural? with
    | none => .error (.invalidField "timestamp" .notUnsigned)
    | some n =>
      (members.filter fun m => m.1 ≠ timestampName).mapM fun m => readingOf (.ofNat n) m.1 m.2
  | _ => .error (.invalidField "feed values" .notObjects)

def readings : Json → Except CodecError (List Reading)
  | .array groups => do
    let l ← groups.mapM readingsOfGroup
    .ok l.flatten
  | _ => .error (.invalidField "feed values" .notArray)

def readFeedValues (e : Envelope) : Except CodecError Message := do
  let v ← Payload.validated e
  let l ← readings v
  .ok (.feedValues l)

/-- A parameter with its value; null stands for the empty text. -/
def parameterOf (entry : String × Json) : Except CodecError (ParameterName × String) := do
  let name ← Payload.parameter entry.1
  match entry.2 with
  | .null => .ok (name, "")
  | v =>
    match Value.ofJson? v with
    | some text => .ok (name, text)
    | none => .error (.invalidField "parameters" (.notParameterValue entry.1))

def readParameters (e : Envelope) : Except CodecError Message := do
  match ← Payload.validated e with
  | .object members => do
    let l ← members.mapM parameterOf
    .ok (.parametersUpdate l)
  | _ => .error (.invalidField "parameters" .notObject)

def readTime (e : Envelope) : Except CodecError Message := do
  let v ← Payload.json e
  match (v.get? timestampName).bind Json.natural? with
  | some n => .ok (.timeSync (.ofNat n))
  | none => .error (.invalidField "timestamp" .notUnsigned)

def readDetails (e : Envelope) : Except CodecError Message := do
  let v ← Payload.validated e
  let feeds ← Payload.strings "feeds" ((v.get? "feeds").getD .null)
  let attributes ← Payload.strings "attributes" ((v.get? "attributes").getD .null)
  .ok (.detailsSynchronizationResponse feeds attributes)

def readFeedRegistration (e : Envelope) : Except CodecError Message := do
  let records ← Payload.typed (.list FeedRecord.shape) e
  let feeds ← records.mapM FeedRecord.toFeed
  .ok (.feedRegistration feeds)

def readFeedRemoval (e : Envelope) : Except CodecError Message := do
  let v ← Payload.json e
  let references ← Payload.strings "references" v
  .ok (.feedRemoval references)

def readAttributeRegistration (e : Envelope) : Except CodecError Message := do
  let records ← Payload.typed (.list AttributeRecord.shape) e
  let attributes ← records.mapM AttributeRecord.toAttribute
  .ok (.attributeRegistration attributes)

def readSynchronizeParameters (e : Envelope) : Except CodecError Message := do
  let v ← Payload.validated e
  let tokens ← Payload.strings "parameters" v
  let names ← tokens.mapM Payload.parameter
  .ok (.synchronizeParameters names)

def reader? : MessageType → Option (Envelope → Except CodecError Message)
  | .feedValues => some readFeedValues
  | .parameterSync => some readParameters
  | .timeSync => some readTime
  | .detailsSynchronizationResponse => some readDetails
  | .feedRegistration => some readFeedRegistration
  | .feedRemoval => some readFeedRemoval
  | .attributeRegistration => some readAttributeRegistration
  | .synchronizeParameters => some readSynchronizeParameters
  | _ => none

end DeviceLink.Data
