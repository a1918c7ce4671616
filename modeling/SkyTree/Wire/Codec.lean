import SkyTree.Delivery.ShareGroupTasks
import SkyTree.Wire.Packet

/-!
# Encoding and decoding

The bodies of the packets, the fixed header, and the two entry points `Encode` and
`Decode`. A decoder of a body is a reader; `decodePacket` rejects what it leaves.
-/

namespace SkyTree.Wire

open Foundation PropertySet

/-! ## Reason codes and topic filters -/

def validReasonCodes : PacketType → List UInt8
  | .connack =>
    [0x00, 0x80, 0x81, 0x82, 0x83, 0x84, 0x85, 0x86, 0x87, 0x88, 0x89, 0x8A, 0x8C, 0x90, 0x95,
      0x97, 0x99, 0x9A, 0x9B, 0x9C, 0x9D, 0x9F]
  | .puback | .pubrec =>
    [0x00, 0x10, 0x80, 0x83, 0x87, 0x90, 0x91, 0x97, 0x99, 0x9A, 0x9B]
  | .pubrel | .pubcomp => [0x00, 0x92]
  | .suback =>
    [0x00, 0x01, 0x02, 0x80, 0x83, 0x87, 0x8F, 0x91, 0x97, 0x9E, 0xA1, 0xA2]
  | .unsuback => [0x00, 0x11, 0x80, 0x83, 0x87, 0x8F, 0x91]
  | .disconnect =>
    [0x00, 0x04, 0x80, 0x81, 0x82, 0x83, 0x87, 0x89, 0x8B, 0x8C, 0x8D, 0x8E, 0x8F, 0x90, 0x93,
      0x94, 0x95, 0x96, 0x97, 0x98, 0x99, 0x9A, 0x9B, 0x9C, 0x9D, 0x9E, 0x9F, 0xA0, 0xA1, 0xA2]
  | .auth => [0x00, 0x18, 0x19]
  | _ => []

variable (packet : PacketType)

def validReason (code : UInt8) : Bool :=
  (validReasonCodes packet).contains code

def invalidReason : WireError :=
  malformed packet.code "reason code" "reason code is not valid for packet"

def validateReason (code : UInt8) : Except WireError Unit :=
  ensure (validReason packet code) (invalidReason packet)

/-- The filter grammar looks at single ASCII characters only, so that every byte may stand
for a character of its own. -/
def characters (topic : Text) : String :=
  String.ofList (topic.map fun byte => Char.ofNat byte.toNat)

def validateTopicFilter (packet : PacketType) (field : String) (topic : Text) :
    Except WireError Unit :=
  (Delivery.Router.validateTopicFilterSyntax (characters topic)).mapError
    (malformed packet.code field)

def validatePacketID (packet : PacketType) (packetID : UInt16) : Except WireError Unit :=
  ensure (decide (packetID ≠ 0))
    (malformed packet.code "packet identifier" "packet identifier must be non-zero")

/-! ## CONNECT -/

def bit (set : Bool) (mask : UInt8) : UInt8 := if set then mask else 0

/-- `MQTT` -/
def protocolName : Text := [77, 81, 84, 84]

structure ConnectFlags where
  cleanStart : Bool
  willFlag : Bool
  willQOS : UInt8
  willRetain : Bool
  passwordFlag : Bool
  usernameFlag : Bool
  deriving DecidableEq, Repr

def Connect.flags (p : Connect) : ConnectFlags where
  cleanStart := p.cleanStart
  willFlag := p.willFlag
  willQOS := p.willQOS
  willRetain := p.willRetain
  passwordFlag := p.passwordFlag
  usernameFlag := p.usernameFlag

def ConnectFlags.packFlags (f : ConnectFlags) : UInt8 :=
  bit f.usernameFlag 0x80 ||| bit f.passwordFlag 0x40 |||
    (if f.willFlag then (0x04 : UInt8) ||| f.willQOS <<< 3 ||| bit f.willRetain 0x20 else 0) |||
    bit f.cleanStart 0x02

def ConnectFlags.ofByte (flags : UInt8) : ConnectFlags where
  cleanStart := flags &&& 0x02 != 0
  willFlag := flags &&& 0x04 != 0
  willQOS := (flags >>> 3) &&& 0x03
  willRetain := flags &&& 0x20 != 0
  passwordFlag := flags &&& 0x40 != 0
  usernameFlag := flags &&& 0x80 != 0

/-- The checks that both directions make when there is no Will, and on the password flag. -/
def validateConnectFlags (willFlag : Bool) (willQOS : UInt8) (willRetain : Bool) :
    Except WireError Unit := do
  ensure (willFlag || willQOS == 0)
    (malformed 1 "connect flags" "will QoS must be zero when will flag is false")
  ensure (willFlag || !willRetain)
    (malformed 1 "connect flags" "will retain must be false when will flag is false")

def validatePasswordFlag (passwordFlag usernameFlag : Bool) : Except WireError Unit :=
  ensure (!passwordFlag || usernameFlag)
    (malformed 1 "connect flags" "password flag requires username flag")

def unpackConnectFlags (flags : UInt8) : Except WireError ConnectFlags := do
  ensure (flags &&& 0x01 == 0) (malformed 1 "connect flags" "reserved bit must be zero")
  let out := ConnectFlags.ofByte flags
  validateConnectFlags out.willFlag out.willQOS out.willRetain
  ensure (out.willQOS != 3) (malformed 1 "connect flags" "will QoS 3 is reserved")
  validatePasswordFlag out.passwordFlag out.usernameFlag
  return out

def validateConnectForEncode (p : Connect) : Except WireError Unit := do
  ensure (decide (p.willQOS ≤ 2)) (malformed 1 "connect flags" "will QoS must be 0, 1, or 2")
  validateConnectFlags p.willFlag p.willQOS p.willRetain
  validatePasswordFlag p.passwordFlag p.usernameFlag

def validateProtocol (name : Text) : Except WireError Unit :=
  ensure (name == protocolName) (malformed 1 "protocol name" "protocol name must be MQTT")

def validateVersion (version : UInt8) : Except WireError Unit :=
  ensure (version == 5) (unsupportedVersion version)

section Bodies

variable (validUTF8 : Text → Bool)

def decodeWill : Reader WireError (Option PublishProperties × Text × Text) := do
  let properties ← decodeProperties validUTF8 .willProperties .connect empty
  let topic ← readString validUTF8 1 "will topic"
  validateTopicName .connect "will topic" topic false
  let message ← readBinary 1 "will message"
  return (some properties, topic, message)

def decodeConnectHeader : Reader WireError (Text × UInt8 × ConnectFlags × UInt16) := do
  let name ← readString validUTF8 1 "protocol name"
  validateProtocol name
  let version ← readByte 1 "protocol version"
  validateVersion version
  let flags ← readByte 1 "connect flags"
  let flags ← unpackConnectFlags flags
  let keepAlive ← readUint16 1 "keep alive"
  return (name, version, flags, keepAlive)

def decodeConnect : Reader WireError Connect := do
  let (name, version, flags, keepAlive) ← decodeConnectHeader validUTF8
  let properties ← decodeProperties validUTF8 .connect .connect empty
  let clientID ← readString validUTF8 1 "client id"
  let (willProperties, willTopic, willMessage) ←
    Reader.optional flags.willFlag (none, [], []) (decodeWill validUTF8)
  let username ← Reader.optional flags.usernameFlag [] (readString validUTF8 1 "username")
  let password ← Reader.optional flags.passwordFlag [] (readBinary 1 "password")
  return {
    willMessage, password, username, protocolName := name, clientID, willTopic
    properties := some properties
    willProperties, keepAlive
    protocolVersion := version
    willQOS := flags.willQOS
    passwordFlag := flags.passwordFlag
    usernameFlag := flags.usernameFlag
    willRetain := flags.willRetain
    willFlag := flags.willFlag
    cleanStart := flags.cleanStart }

def encodeWill (p : Connect) : Except WireError (List UInt8) := do
  let properties ← encodeProperties validUTF8 .willProperties p.willProperties
  validateTopicName .connect "will topic" p.willTopic false
  let topic ← writeString validUTF8 1 "will topic" p.willTopic
  let message ← writeBinary 1 "will message" p.willMessage
  return properties ++ topic ++ message

def writeOptional (present : Bool) (write : Except WireError (List UInt8)) :
    Except WireError (List UInt8) :=
  if present then write else .ok []

def encodeConnect (p : Connect) : Except WireError (List UInt8) := do
  validateConnectForEncode p
  validateProtocol p.protocolName
  validateVersion p.protocolVersion
  let name ← writeString validUTF8 1 "protocol name" p.protocolName
  let properties ← encodeProperties validUTF8 .connect p.properties
  let clientID ← writeString validUTF8 1 "client id" p.clientID
  let will ← writeOptional p.willFlag (encodeWill validUTF8 p)
  let username ← writeOptional p.usernameFlag (writeString validUTF8 1 "username" p.username)
  let password ← writeOptional p.passwordFlag (writeBinary 1 "password" p.password)
  return name ++ [p.protocolVersion, p.flags.packFlags] ++ writeUint16 p.keepAlive ++
    properties ++ clientID ++ will ++ username ++ password

/-! ## CONNACK -/

def validateSessionPresent (reasonCode : UInt8) (sessionPresent : Bool) : Except WireError Unit :=
  ensure (reasonCode == 0 || !sessionPresent)
    (malformed 2 "session present" "session present must be false for unsuccessful CONNACK")

def decodeConnack : Reader WireError ConnAck := do
  let flags ← readByte 2 "acknowledge flags"
  ensure (flags &&& 0xfe == 0) (malformed 2 "acknowledge flags" "reserved bits must be zero")
  let sessionPresent := flags &&& 0x01 != 0
  let reasonCode ← readByte 2 "reason code"
  validateReason .connack reasonCode
  validateSessionPresent reasonCode sessionPresent
  let properties ← decodeProperties validUTF8 .connack .connack empty
  return { properties := some properties, reasonCode, sessionPresent }

def encodeConnack (p : ConnAck) : Except WireError (List UInt8) := do
  validateReason .connack p.reasonCode
  validateSessionPresent p.reasonCode p.sessionPresent
  let properties ← encodeProperties validUTF8 .connack p.properties
  return [if p.sessionPresent then 1 else 0, p.reasonCode] ++ properties

/-! ## PUBLISH -/

def validatePublishTopic (topic : Text) (topicAlias : Option UInt16) : Except WireError Unit :=
  if topic = [] then
    ensure topicAlias.isSome
      (malformed 3 "topic name" "topic name is required unless topic alias is present")
  else validateTopicName .publish "topic name" topic false

def decodePublish (flags : UInt8) : Reader WireError Publish := do
  let qos := (flags >>> 1) &&& 0x03
  ensure (qos != 3) (malformed 3 "qos" "PUBLISH QoS 3 is reserved")
  let topic ← readString validUTF8 3 "topic name"
  let packetID ← Reader.optional (decide (0 < qos)) 0 do
    let packetID ← readUint16 3 "packet identifier"
    validatePacketID .publish packetID
    return packetID
  let properties ← decodeProperties validUTF8 .publish .publish (empty : PublishProperties)
  validatePublishTopic topic properties.topicAlias
  let payload ← Reader.remainder
  return {
    payload, topic
    properties := some properties
    packetID, qos
    duplicate := flags &&& 0x08 != 0
    retain := flags &&& 0x01 != 0 }

def encodePublish (p : Publish) : Except WireError (List UInt8) := do
  ensure (p.qos != 3) (malformed 3 "qos" "PUBLISH QoS 3 is reserved")
  ensure (p.qos != 0 || p.packetID == 0)
    (malformed 3 "packet identifier" "QoS 0 PUBLISH must not carry a packet identifier")
  ensure (!decide (0 < p.qos) || p.packetID != 0)
    (malformed 3 "packet identifier" "packet identifier must be non-zero")
  validatePublishTopic p.topic (p.properties.bind PublishProperties.topicAlias)
  let topic ← writeString validUTF8 3 "topic name" p.topic
  let properties ← encodeProperties validUTF8 .publish p.properties
  return topic ++ (if 0 < p.qos then writeUint16 p.packetID else []) ++ properties ++ p.payload

/-! ## Packets that may end before their reason or before their properties -/

/-- A reason and properties; both are optional at the end of the body. -/
def decodeReason (packet : PacketType) {P : Type} [PropertySet P] :
    Reader WireError (UInt8 × P) := do
  let nothing ← Reader.atEnd
  let reason ← Reader.optional (!nothing) 0 do
    let reason ← readByte packet.code "reason code"
    validateReason packet reason
    return reason
  let ended ← Reader.atEnd
  let properties ← Reader.optional (!ended) empty (decodeProperties validUTF8 packet packet empty)
  return (reason, properties)

/-- Reason 0 without properties is left out, and so are empty properties. -/
def encodeReason (reason : UInt8) (properties : List UInt8) : List UInt8 :=
  if reason = 0 ∧ properties.length = 1 then []
  else reason :: (if 1 < properties.length then properties else [])

variable (packet : PacketType)

def decodeAck : Reader WireError Ack := do
  let packetID ← readUint16 packet.code "packet identifier"
  validatePacketID packet packetID
  let (reasonCode, properties) ← decodeReason validUTF8 packet
  return { properties := some properties, packetID, reasonCode }

def encodeAck (p : Ack) : Except WireError (List UInt8) := do
  validatePacketID packet p.packetID
  validateReason packet p.reasonCode
  let properties ← encodeProperties validUTF8 packet p.properties
  return writeUint16 p.packetID ++ encodeReason p.reasonCode properties

/-- DISCONNECT and AUTH. -/
def decodeReasonPacket {P : Type} [PropertySet P] :
    Reader WireError (ReasonPacket P) := do
  let (reasonCode, properties) ← decodeReason validUTF8 packet
  return { properties := some properties, reasonCode }

def encodeReasonPacket {P : Type} [PropertySet P] (p : ReasonPacket P) :
    Except WireError (List UInt8) := do
  validateReason packet p.reasonCode
  let properties ← encodeProperties validUTF8 packet p.properties
  return encodeReason p.reasonCode properties

/-! ## SUBSCRIBE and UNSUBSCRIBE -/

def SubOptions.pack (sub : SubOptions) : UInt8 :=
  (sub.qos &&& (0x03 : UInt8)) ||| bit sub.noLocal 0x04 ||| bit sub.retainAsPublished 0x08 |||
    ((sub.retainHandling <<< 4) &&& (0x30 : UInt8))

def SubOptions.unpack (topic : Text) (options : UInt8) : SubOptions where
  topic := topic
  qos := options &&& 0x03
  noLocal := options &&& 0x04 != 0
  retainAsPublished := options &&& 0x08 != 0
  retainHandling := (options >>> 4) &&& 0x03

def decodeSubOptions : Reader WireError SubOptions := do
  let topic ← readString validUTF8 8 "topic filter"
  let options ← readByte 8 "subscription options"
  let sub := SubOptions.unpack topic options
  ensure (sub.qos != 3) (malformed 8 "subscription options" "QoS 3 is reserved")
  ensure (sub.retainHandling != 3)
    (malformed 8 "subscription options" "retain handling 3 is reserved")
  ensure (options &&& 0xc0 == 0) (malformed 8 "subscription options" "reserved bits must be zero")
  validateTopicFilter .subscribe "topic filter" topic
  return sub

def validateSubOptionsForEncode (sub : SubOptions) : Except WireError Unit := do
  ensure (decide (sub.qos ≤ 2)) (malformed 8 "subscription options" "QoS must be between 0 and 2")
  ensure (decide (sub.retainHandling ≤ 2))
    (malformed 8 "subscription options" "retain handling must be between 0 and 2")

def encodeSubOptions (sub : SubOptions) : Except WireError (List UInt8) := do
  validateTopicFilter .subscribe "topic filter" sub.topic
  validateSubOptionsForEncode sub
  let topic ← writeString validUTF8 8 "topic filter" sub.topic
  return topic ++ [sub.pack]

def decodeTopic : Reader WireError Text := do
  let topic ← readString validUTF8 10 "topic filter"
  validateTopicFilter .unsubscribe "topic filter" topic
  return topic

def encodeTopic (topic : Text) : Except WireError (List UInt8) := do
  validateTopicFilter .unsubscribe "topic filter" topic
  writeString validUTF8 10 "topic filter" topic

def validateFilters (packet : PacketType) (count : Nat) : Except WireError Unit :=
  ensure (decide (count ≠ 0))
    (malformed packet.code "topic filters" "at least one topic filter is required")

section FilterList

variable {F P : Type} [PropertySet P]

def decodeFilterList (packet : PacketType) (decodeFilter : Reader WireError F) :
    Reader WireError (FilterList F P) := do
  let packetID ← readUint16 packet.code "packet identifier"
  validatePacketID packet packetID
  let properties ← decodeProperties validUTF8 packet packet empty
  let filters ← Reader.many decodeFilter
  validateFilters packet filters.length
  return { properties := some properties, filters, packetID }

def encodeFilterList (packet : PacketType) (encodeFilter : F → Except WireError (List UInt8))
    (p : FilterList F P) : Except WireError (List UInt8) := do
  validatePacketID packet p.packetID
  validateFilters packet p.filters.length
  let properties ← encodeProperties validUTF8 packet p.properties
  let filters ← writeAll encodeFilter p.filters
  return writeUint16 p.packetID ++ properties ++ filters

end FilterList

def decodeSubscribe : Reader WireError Subscribe :=
  decodeFilterList validUTF8 .subscribe (decodeSubOptions validUTF8)

def encodeSubscribe : Subscribe → Except WireError (List UInt8) :=
  encodeFilterList validUTF8 .subscribe (encodeSubOptions validUTF8)

def decodeUnsubscribe : Reader WireError Unsubscribe :=
  decodeFilterList validUTF8 .unsubscribe (decodeTopic validUTF8)

def encodeUnsubscribe : Unsubscribe → Except WireError (List UInt8) :=
  encodeFilterList validUTF8 .unsubscribe (encodeTopic validUTF8)

/-! ## SUBACK and UNSUBACK -/

variable (packet : PacketType)

def validateReasons (reasons : List UInt8) : Except WireError Unit := do
  ensure (decide (reasons.length ≠ 0))
    (malformed packet.code "reason codes" "at least one reason code is required")
  ensure (reasons.all (validReason packet)) (invalidReason packet)

def decodeCodeList : Reader WireError CodeList := do
  let packetID ← readUint16 packet.code "packet identifier"
  validatePacketID packet packetID
  let properties ← decodeProperties validUTF8 packet packet empty
  let reasons ← Reader.remainder
  validateReasons packet reasons
  return { properties := some properties, reasons, packetID }

def encodeCodeList (p : CodeList) : Except WireError (List UInt8) := do
  validatePacketID packet p.packetID
  validateReasons packet p.reasons
  let properties ← encodeProperties validUTF8 packet p.properties
  return writeUint16 p.packetID ++ properties ++ p.reasons

/-! ## Bodies -/

def decodeEmpty : Reader WireError Unit := do
  let ended ← Reader.atEnd
  ensure ended (malformed packet.code "remaining length" "remaining length must be zero")

def decodeBody (flags : UInt8) : PacketType → Reader WireError Packet
  | .connect => do return .connect (← decodeConnect validUTF8)
  | .connack => do return .connack (← decodeConnack validUTF8)
  | .publish => do return .publish (← decodePublish validUTF8 flags)
  | .puback => do return .puback (← decodeAck validUTF8 .puback)
  | .pubrec => do return .pubrec (← decodeAck validUTF8 .pubrec)
  | .pubrel => do return .pubrel (← decodeAck validUTF8 .pubrel)
  | .pubcomp => do return .pubcomp (← decodeAck validUTF8 .pubcomp)
  | .subscribe => do return .subscribe (← decodeSubscribe validUTF8)
  | .suback => do return .suback (← decodeCodeList validUTF8 .suback)
  | .unsubscribe => do return .unsubscribe (← decodeUnsubscribe validUTF8)
  | .unsuback => do return .unsuback (← decodeCodeList validUTF8 .unsuback)
  | .pingreq => do
      decodeEmpty .pingreq
      return .pingreq
  | .pingresp => do
      decodeEmpty .pingresp
      return .pingresp
  | .disconnect => do return .disconnect (← decodeReasonPacket validUTF8 .disconnect)
  | .auth => do return .auth (← decodeReasonPacket validUTF8 .auth)
  | .willProperties => fun _ =>
    .error (malformed 16 "packet type" "unknown packet type")

def decodePacket (packet : PacketType) (flags : UInt8) (body : List UInt8) :
    Except WireError Packet := do
  let (content, rest) ← decodeBody validUTF8 flags packet body
  ensure rest.isEmpty (malformed packet.code "body" "packet body has trailing bytes")
  return content

def encodePacket : Packet → Except WireError (List UInt8)
  | .connect p => encodeConnect validUTF8 p
  | .connack p => encodeConnack validUTF8 p
  | .publish p => encodePublish validUTF8 p
  | .puback p => encodeAck validUTF8 .puback p
  | .pubrec p => encodeAck validUTF8 .pubrec p
  | .pubrel p => encodeAck validUTF8 .pubrel p
  | .pubcomp p => encodeAck validUTF8 .pubcomp p
  | .subscribe p => encodeSubscribe validUTF8 p
  | .suback p => encodeCodeList validUTF8 .suback p
  | .unsubscribe p => encodeUnsubscribe validUTF8 p
  | .unsuback p => encodeCodeList validUTF8 .unsuback p
  | .pingreq | .pingresp => .ok []
  | .disconnect p => encodeReasonPacket validUTF8 .disconnect p
  | .auth p => encodeReasonPacket validUTF8 .auth p

end Bodies

/-! ## The fixed header -/

def invalidFlags (packet : PacketType) : WireError :=
  malformed packet.code "fixed header flags" "invalid fixed header flags"

def validateFixedHeaderFlags (packet : PacketType) (flags : UInt8) : Except WireError Unit :=
  match packet with
  | .publish => do
      let qos := (flags >>> 1) &&& 0x03
      ensure (qos != 0x03) (malformed 3 "fixed header flags" "PUBLISH QoS 3 is reserved")
      ensure (qos != 0x00 || flags &&& 0x08 == 0)
        (malformed 3 "fixed header flags" "PUBLISH QoS 0 must not set DUP")
  | .pubrel | .subscribe | .unsubscribe => ensure (flags == 0x02) (invalidFlags packet)
  | _ => ensure (flags == 0x00) (invalidFlags packet)

def publishFlags (p : Publish) : UInt8 :=
  (p.qos <<< 1) ||| bit p.duplicate 0x08 ||| bit p.retain 0x01

def fixedHeaderFlags : Packet → Except WireError UInt8
  | .publish p => do
      ensure (p.qos != 3) (malformed 3 "qos" "PUBLISH QoS 3 is reserved")
      ensure (p.qos != 0 || !p.duplicate)
        (malformed 3 "fixed header flags" "PUBLISH QoS 0 must not set DUP")
      return publishFlags p
  | .pubrel _ | .subscribe _ | .unsubscribe _ => .ok 0x02
  | _ => .ok 0x00

inductive DecodeError where
  | read (err : ReadError)
  | wire (err : WireError)
  deriving DecidableEq, Repr

def wire {α : Type} (x : Except WireError α) : Except DecodeError α := x.mapError .wire

def readRemainingLength : Reader DecodeError (Nat × Nat) :=
  readDigits
    { truncated := .read .eof
      exceeds := .wire (malformed 0 "remaining length" "remaining length exceeds MQTT maximum")
      notMinimal := .wire
        (malformed 0 "remaining length" "remaining length is not minimally encoded")
      unterminated := .wire
        (malformed 0 "remaining length" "malformed variable byte integer") } 4 1 0 1

def classifyReadError (packet : PacketType) (field : String) : DecodeError → DecodeError
  | .wire err => .wire err
  | .read err => .wire
      (wireError .malformedPacket packet.code field "failed to read field" (some err))

/-- `io.ReadFull` -/
def readFull (count : Nat) : Reader DecodeError (List UInt8) := fun input =>
  Reader.take (.read (if input.isEmpty then .eof else .unexpectedEOF)) count input

def PacketType.all : List PacketType :=
  [.connect, .connack, .publish, .puback, .pubrec, .pubrel, .pubcomp, .subscribe, .suback,
    .unsubscribe, .unsuback, .pingreq, .pingresp, .disconnect, .auth]

def lookupPacketType (code : UInt8) : Except WireError PacketType :=
  match PacketType.all.find? fun packet => packet.code == code with
  | none => .error (malformed code "packet type" "unknown packet type")
  | some packet => .ok packet

/-! ## Entry points -/

section EntryPoints

variable (validUTF8 : Text → Bool)

def validateSize (packet : PacketType) (limit size : Int) : Except WireError Unit :=
  ensure (!(decide (0 < limit) && decide (limit < size))) (tooLarge packet.code size limit)

def encode (maxPacketSize : Int) (cp : ControlPacket) : Except WireError (List UInt8) :=
  match cp.canonicalPacket with
  | none => .error (implementation cp.type "content" "nil packet content")
  | some content => do
      let packet := content.packetType
      ensure (cp.type == 0 || cp.type == packet.code)
        (implementation packet.code "type" "control packet type does not match content")
      let flags ← fixedHeaderFlags content
      validateFixedHeaderFlags packet flags
      let body ← encodePacket validUTF8 content
      ensure (decide (body.length ≤ maxRemainingLength))
        (malformed packet.code "remaining length" "remaining length exceeds MQTT maximum")
      let remainingLength ← encodeRemainingLength body.length
      validateSize packet maxPacketSize (1 + remainingLength.length + body.length)
      return (packet.code <<< 4 ||| flags) :: (remainingLength ++ body)

def decode (maxPacketSize : Int) : Reader DecodeError ControlPacket := do
  let first ← Reader.next (.read .eof)
  let flags := first &&& 0x0f
  let packet ← wire (lookupPacketType (first >>> 4))
  wire (validateFixedHeaderFlags packet flags)
  let (remainingLength, width) ←
    readRemainingLength.mapError (classifyReadError packet "remaining length")
  wire (validateSize packet maxPacketSize (1 + width + remainingLength))
  let body ← (readFull remainingLength).mapError (classifyReadError packet "body")
  let content ← wire (decodePacket validUTF8 packet flags body)
  return {
    content := some content
    packet := some content
    type := packet.code
    flags, remainingLength }

end EntryPoints

end SkyTree.Wire
