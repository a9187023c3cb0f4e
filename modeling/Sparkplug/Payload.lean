import Sparkplug.Types

/-! The payload builders of src/sparkplug/payload_helpers.rs with the datatypes they write.
The fields of the protobuf records that every builder leaves unset are not listed. -/
namespace Sparkplug

/-- Milliseconds since the Unix epoch. The builders read no clock. -/
structure Timestamp where
  millis : UInt64
  deriving DecidableEq, Repr

inductive DataType where
  | int8 | int16 | int32 | int64 | uint8 | uint16 | uint32 | uint64 | float | double | boolean
  | string | dateTime | text | uuid | dataSet | bytes | file | template | propertySet
  | propertySetList
  deriving DecidableEq, Repr

def DataType.code : DataType → UInt32
  | .int8 => 1
  | .int16 => 2
  | .int32 => 3
  | .int64 => 4
  | .uint8 => 5
  | .uint16 => 6
  | .uint32 => 7
  | .uint64 => 8
  | .float => 9
  | .double => 10
  | .boolean => 11
  | .string => 12
  | .dateTime => 13
  | .text => 14
  | .uuid => 15
  | .dataSet => 16
  | .bytes => 17
  | .file => 18
  | .template => 19
  | .propertySet => 20
  | .propertySetList => 21

def DataType.fromCode : UInt32 → Option DataType
  | 1 => some .int8
  | 2 => some .int16
  | 3 => some .int32
  | 4 => some .int64
  | 5 => some .uint8
  | 6 => some .uint16
  | 7 => some .uint32
  | 8 => some .uint64
  | 9 => some .float
  | 10 => some .double
  | 11 => some .boolean
  | 12 => some .string
  | 13 => some .dateTime
  | 14 => some .text
  | 15 => some .uuid
  | 16 => some .dataSet
  | 17 => some .bytes
  | 18 => some .file
  | 19 => some .template
  | 20 => some .propertySet
  | 21 => some .propertySetList
  | _ => none

theorem DataType.fromCode_eq_some {code : UInt32} {datatype : DataType} :
    fromCode code = some datatype ↔ datatype.code = code := by
  constructor
  · intro named
    unfold fromCode at named
    split at named <;> cases named <;> rfl
  · rintro rfl
    cases datatype <;> rfl

inductive MetricValue where
  | float (value : Float)
  | string (value : String)
  | bool (value : Bool)
  | int (value : UInt64)

/-- The members of the protobuf `oneof` that a metric value becomes. -/
inductive ProtoValue where
  | doubleValue (value : Float)
  | stringValue (value : String)
  | booleanValue (value : Bool)
  | longValue (value : UInt64)

def MetricValue.toProto : MetricValue → ProtoValue × DataType
  | .float v => (.doubleValue v, .double)
  | .string v => (.stringValue v, .string)
  | .bool v => (.booleanValue v, .boolean)
  | .int v => (.longValue v, .uint64)

structure Metric where
  name : Option String
  value : Option ProtoValue
  datatype : Option UInt32
  timestamp : Option UInt64

structure Payload where
  timestamp : Option UInt64
  metrics : List Metric
  seq : Option UInt64

def createMetric (name : String) (value : MetricValue) (timestamp : Timestamp) : Metric :=
  let (protoValue, datatype) := value.toProto
  { name := some name
    value := some protoValue
    datatype := some datatype.code
    timestamp := some timestamp.millis }

def protoMetrics (metrics : List (String × MetricValue × UInt64)) : List Metric :=
  metrics.map fun (name, value, ts) => createMetric name value ⟨ts⟩

def createPayload (metrics : List Metric) (timestamp : Timestamp) (seq : UInt8) : Payload where
  timestamp := some timestamp.millis
  metrics := metrics
  seq := some seq.toUInt64

def createBirthCertificate (timestamp : Timestamp) (seq : UInt8) : Payload where
  timestamp := some timestamp.millis
  metrics := [createMetric "Node Control/Rebirth" (.float 0.0) timestamp]
  seq := some seq.toUInt64

def createDeviceBirthCertificate (timestamp : Timestamp) (seq : UInt8) : Payload where
  timestamp := some timestamp.millis
  metrics := [createMetric "Device Control/Rebirth" (.float 0.0) timestamp]
  seq := some seq.toUInt64

end Sparkplug
