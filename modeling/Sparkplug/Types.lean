import Mathlib.Data.String.Basic

/-! Message types, errors and wire options of src/sparkplug/types.rs and src/error.rs.
Only the error variants that a modelled function can return are listed. -/
namespace Sparkplug

/-- A span of time in nanoseconds. No modelled function computes with one. -/
abbrev Duration := Nat

inductive Shape where
  | node
  | device
  | host
  deriving DecidableEq, Repr

inductive MessageType where
  | NBIRTH
  | NDATA
  | NDEATH
  | DBIRTH
  | DDATA
  | DDEATH
  | NCMD
  | DCMD
  | STATE
  deriving DecidableEq, Repr

inductive QoS where
  | atMostOnce
  | atLeastOnce
  | exactlyOnce
  deriving DecidableEq, Repr

namespace MessageType

def asStr : MessageType → String
  | NBIRTH => "NBIRTH"
  | NDATA => "NDATA"
  | NDEATH => "NDEATH"
  | DBIRTH => "DBIRTH"
  | DDATA => "DDATA"
  | DDEATH => "DDEATH"
  | NCMD => "NCMD"
  | DCMD => "DCMD"
  | STATE => "STATE"

def shape : MessageType → Shape
  | NBIRTH | NDATA | NDEATH | NCMD => .node
  | DBIRTH | DDATA | DDEATH | DCMD => .device
  | STATE => .host

def specQos : MessageType → QoS
  | NDEATH | STATE => .atLeastOnce
  | _ => .atMostOnce

def specRetain : MessageType → Bool
  | STATE => true
  | _ => false

end MessageType

/-- The two ways `rumqttc` gives a request back instead of taking it. -/
inductive ClientError where
  | request
  | tryRequest
  deriving DecidableEq, Repr

/-- The three texts an `InvalidTopic` error carries, with what each one formats. -/
inductive TopicFault where
  /-- `{label} {value:?} must be non-empty and free of '/', '+' and '#'` -/
  | segment (label value : String)
  /-- The whole topic, which is foreign or too short. -/
  | unaddressed (topic : String)
  /-- `{topic} names no edge node, so it holds no seq count` -/
  | noEdgeNode (topic : String)
  deriving DecidableEq, Repr

inductive SparkplugError where
  | connectionTimeout (timeout : Duration)
  | publish (error : ClientError)
  | invalidTopic (fault : TopicFault)
  | unknownMessageType (raw : String)
  | invalidNamespace (version : String)
  | wrongTopicShape (topic : String) (messageType : MessageType)
  | publishLost (count : UInt32)
  | disconnect (error : ClientError)
  | shutdownTimeout (after : Duration)
  | notAnEdgeNode
  | flushTimeout (after : Duration) (unacked : UInt32)
  deriving DecidableEq, Repr

/-- `FromStr for MessageType`. -/
def MessageType.fromStr (s : String) : Except SparkplugError MessageType :=
  match s with
  | "NBIRTH" => .ok .NBIRTH
  | "NDATA" => .ok .NDATA
  | "NDEATH" => .ok .NDEATH
  | "DBIRTH" => .ok .DBIRTH
  | "DDATA" => .ok .DDATA
  | "DDEATH" => .ok .DDEATH
  | "NCMD" => .ok .NCMD
  | "DCMD" => .ok .DCMD
  | "STATE" => .ok .STATE
  | other => .error (.unknownMessageType other)

theorem MessageType.fromStr_asStr (m : MessageType) : fromStr m.asStr = .ok m := by
  cases m <;> rfl

theorem MessageType.asStr_injective : Function.Injective asStr := by
  intro m n same
  have h := congrArg fromStr same
  rw [fromStr_asStr, fromStr_asStr] at h
  exact Except.ok.inj h

/-- Which of the two identities a client fills. -/
inductive Role where
  | publisher
  | edgeNode
  deriving DecidableEq, Repr

structure WireOptions where
  qos : QoS
  retain : Bool
  tracked : Bool
  deriving DecidableEq, Repr

def wireOptions (role : Role) (messageType : MessageType) : WireOptions :=
  let qos := match role with
    | .edgeNode => messageType.specQos
    | .publisher => .atLeastOnce
  { qos := qos
    retain := messageType.specRetain
    tracked := qos == .atLeastOnce }

theorem tracked_iff_acknowledged (role : Role) (messageType : MessageType) :
    (wireOptions role messageType).tracked = true ↔
      (wireOptions role messageType).qos = .atLeastOnce := by
  simp [wireOptions]

end Sparkplug
