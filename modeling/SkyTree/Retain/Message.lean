import SkyTree.Mqtt.Packet

/-!
# Retained messages

A retained message is stored with the wire bytes of its PUBLISH and with the
absolute time at which it expires. Serving it again rebuilds the PUBLISH from
those bytes and replaces the Message Expiry Interval by the time that is left.
Times are in nanoseconds since the epoch.
-/

namespace SkyTree.Retain

open Mqtt

/-- Wire bytes of a stored packet, by what decoding them gives. -/
inductive PacketBytes where
  | empty
  | publish (packet : Publish)
  | otherPacket
  | malformed
  deriving DecidableEq, Repr

structure RetainMessage where
  topic : String
  payload : List UInt8 := []
  qos : Int := 0
  publishPacket : PacketBytes := .empty
  createdAtUnixNano : Int := 0
  publisherClientID : String := ""
  expiredAtUnixNano : Int := 0
  deriving DecidableEq, Repr

def second : Int := 1000000000

/-- Conversion to `uint32` keeps the low 32 bits. -/
def uint32 (value : Int) : Nat := (value % 2 ^ 32).toNat

variable (publish : Publish)

def retainedExpiredAtUnixNano (now : Int) : Int :=
  match publish.properties.messageExpiry with
  | none => 0
  | some interval => now + interval * second

/-- The stored packet needs an identifier above QoS 0; serving it clears the placeholder. -/
def retainPublishForWireEncoding : Publish :=
  if 0 < publish.qos ∧ publish.packetID = 0 then { publish with packetID := 1 } else publish

def newRetainMessageFromPublish (now : Int) (publisherClientID : String) :
    RetainMessage where
  topic := publish.topic
  payload := publish.payload
  qos := publish.qos
  publishPacket := .publish (retainPublishForWireEncoding publish)
  createdAtUnixNano := now
  publisherClientID := publisherClientID
  expiredAtUnixNano := retainedExpiredAtUnixNano publish now

/-- The PUBLISH with the whole seconds left, at least one; `none` once it has expired. -/
def applyRetainedMessageExpiry (expiredAtUnixNano now : Int) : Option Publish :=
  match publish.properties.messageExpiry with
  | none => some publish
  | some _ =>
    if expiredAtUnixNano ≤ 0 then none
    else if expiredAtUnixNano ≤ now then none
    else
      let remaining := uint32 ((expiredAtUnixNano - now) / second)
      some { publish with
        properties := { publish.properties with
          messageExpiry := some (if remaining = 0 then 1 else remaining) } }

variable (message : RetainMessage)

def decodedPublish : Option Publish :=
  match message.publishPacket with
  | .empty => some
      { topic := message.topic, payload := message.payload, qos := (message.qos % 256).toNat }
  | .publish packet => some packet
  | .otherPacket => none
  | .malformed => none

def publishFromRetainMessage (now : Int) : Option Publish :=
  if message.topic = "" then none
  else
    match decodedPublish message with
    | none => none
    | some publish =>
      applyRetainedMessageExpiry
        { publish with topic := message.topic, retain := true, packetID := 0 }
        message.expiredAtUnixNano now

def isExpired (now : Int) : Bool :=
  decide (0 < message.expiredAtUnixNano) && decide (message.expiredAtUnixNano ≤ now)

theorem isExpired_iff {msg : RetainMessage} {now : Int} : isExpired msg now = true ↔
      0 < msg.expiredAtUnixNano ∧ msg.expiredAtUnixNano ≤ now := by
  simp [isExpired]

end SkyTree.Retain
