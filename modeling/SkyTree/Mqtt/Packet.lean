import Mathlib.Data.List.TakeWhile
import Mathlib.Data.String.Basic
import Mathlib.Tactic

/-!
# Identifiers and packets

The values shared by every component: client identifiers, owner tokens, message
and task identifiers, and the parts of MQTT 5 packets the broker core reads.
-/

namespace SkyTree

abbrev ClientID := String

abbrev OwnerToken := String

/-- A 128-bit identifier. Byte order, canonical text order and numeric order of
identifiers agree, and the zero identifier is `uuid.Nil`. -/
abbrev UUID := Nat

abbrev UUID.nil : UUID := 0

abbrev PacketID := Nat

namespace Mqtt

/-- A reason code of `0x80` or above reports a failure. -/
def mqtt5ReasonCodeIsError (code : Nat) : Bool := decide (0x80 ≤ code)

def reasonSuccess : Nat := 0x00

def pubrecNoMatchingSubscribers : Nat := 0x10

structure PublishProperties where
  payloadFormat : Option Nat := none
  messageExpiry : Option Nat := none
  contentType : String := ""
  responseTopic : String := ""
  correlationData : List UInt8 := []
  user : List (String × String) := []
  deriving DecidableEq, Repr

structure Publish where
  topic : String
  payload : List UInt8
  qos : Nat
  retain : Bool := false
  duplicate : Bool := false
  packetID : PacketID := 0
  properties : PublishProperties := {}
  deriving DecidableEq, Repr

end Mqtt

end SkyTree
