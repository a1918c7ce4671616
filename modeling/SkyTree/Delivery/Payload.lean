import SkyTree.Wire.PublishQoS

/-!
# Stored messages

A routed PUBLISH is stored as a protobuf record around its own wire encoding. The packet
identifier belongs to a connection and is left out; QoS 1 and 2 are encoded with a
placeholder, which is cleared when the record is read. The Message Expiry Interval becomes
a deadline in the 64-bit nanoseconds of the record.
-/

namespace SkyTree.Delivery.Payload

open Wire PropertySet

/-- `append` to a nil slice does not yield an empty one. -/
def cloneProperties (props : PublishProperties) : PublishProperties :=
  { props with correlationData := normalizeBinary props.correlationData }

def clonePublishForStorage (publish : Publish) : Publish :=
  { publish with packetID := 0, properties := publish.properties.map cloneProperties }

structure Message where
  publish : Option Publish
  messageID : UUID
  sendClientID : Text
  pubReceived : Bool := false
  createdTime : Int64
  expiredTime : Int64

structure StorePublishMessage where
  messageID : UUID
  publishPacket : List UInt8
  pubReceived : Bool
  createdTime : Int64
  expiredTime : Int64
  senderID : Text

variable (publish : Publish)

/-- `NewControlPacket(PUBLISH)` with another content. -/
def newControlPacket : ControlPacket where
  content := some (.publish publish)
  packet := some (.publish ⟨[], [], some {}, 0, 0, false, false⟩)
  type := 3
  flags := 0
  remainingLength := 0

def controlPacketForStorage : ControlPacket :=
  newControlPacket
    { publish with
      properties := publish.properties.map cloneProperties
      packetID := if 0 < publish.qos ∧ publish.packetID = 0 then 1 else publish.packetID }

def messageExpiry : Option UInt32 :=
  publish.properties.bind PublishProperties.messageExpiry

/-- `int64(expiry) * int64(time.Second)` -/
def nanoseconds (expiry : UInt32) : Int64 := Int64.ofNat expiry.toNat * 1000000000

section Operations

variable (validUTF8 : Text → Bool)

def publishMessageToProtoMessage (now : Int64) (m : Message) :
    Except WireError StorePublishMessage := do
  let publishPacket ←
    match m.publish with
    | none => pure []
    | some publish => encode validUTF8 0 (controlPacketForStorage publish)
  let createdTime := if m.createdTime = 0 then now else m.createdTime
  return {
    messageID := m.messageID
    publishPacket
    pubReceived := false
    createdTime
    expiredTime :=
      if m.expiredTime = 0 then
        match m.publish.bind messageExpiry with
        | none => 0
        | some expiry => createdTime + nanoseconds expiry
      else m.expiredTime
    senderID := m.sendClientID }

inductive ReadError where
  | wire (err : DecodeError)
  | content (text : String)

/-- The identifier that is returned and the record that is written; `fresh` is the outcome
of `uuid.NewV7`. -/
def savePublishMessage (now : Int64) (fresh : UUID) (ts : Int64) (publisherClientID : Text)
    (publish : Publish) (messageID : UUID) : Except WireError (UUID × StorePublishMessage) := do
  let message : Message :=
    { publish := some (clonePublishForStorage publish)
      messageID := if messageID = UUID.nil then fresh else messageID
      sendClientID := publisherClientID
      createdTime := ts
      expiredTime :=
        match messageExpiry publish with
        | none => 0
        | some expiry => if expiry = 0 then ts else ts + nanoseconds expiry }
  let stored ← publishMessageToProtoMessage validUTF8 now message
  return (message.messageID, stored)

end Operations

/-! ## The packet -/

variable {utf8 : Text → Bool} {p : Publish} {props : Option PublishProperties}
  {bytes out : List UInt8}

def stored (p : Publish) : Publish :=
  { p with packetID := if 0 < p.qos then 1 else 0, properties := p.properties.map cloneProperties }

/-- The PUBLISH that is asked for: no packet identifier, and absent and empty properties are the
same, as are absent and empty Correlation Data. -/
def expected (p : Publish) : Publish :=
  { p with packetID := 0, properties := some (cloneProperties (p.properties.getD {})) }

@[simp] theorem nanoseconds_zero : nanoseconds 0 = 0 := rfl

variable {now ts : Int64} {fresh id : UUID} {sender : Text}

def deadline (p : Publish) (ts : Int64) : Int :=
  match messageExpiry p with
  | none => 0
  | some expiry => ts.toInt + expiry.toNat * 1000000000

/-- Between the epoch and March 2126 every interval ends at a 64-bit time. -/
def InTime (ts : Int64) : Prop := 0 < ts.toInt ∧ ts.toInt + 4294967295 * 1000000000 < 2 ^ 63

end SkyTree.Delivery.Payload
