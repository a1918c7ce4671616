import SkyTree.Wire.Cursor

/-!
# One property

A property is an identifier followed by a value whose form the identifier decides. The
table of specifications says in which packets a property may occur and whether it may be
repeated there.
-/

namespace SkyTree.Wire

open Foundation Reader

inductive PacketType where
  | connect
  | connack
  | publish
  | puback
  | pubrec
  | pubrel
  | pubcomp
  | subscribe
  | suback
  | unsubscribe
  | unsuback
  | pingreq
  | pingresp
  | disconnect
  | auth
  | willProperties
  deriving DecidableEq, Repr

def PacketType.code : PacketType → UInt8
  | .connect => 1
  | .connack => 2
  | .publish => 3
  | .puback => 4
  | .pubrec => 5
  | .pubrel => 6
  | .pubcomp => 7
  | .subscribe => 8
  | .suback => 9
  | .unsubscribe => 10
  | .unsuback => 11
  | .pingreq => 12
  | .pingresp => 13
  | .disconnect => 14
  | .auth => 15
  | .willProperties => 16

/-! ## Specifications -/

inductive PropertyID where
  | payloadFormat
  | messageExpiry
  | contentType
  | responseTopic
  | correlationData
  | subscriptionIdentifier
  | sessionExpiryInterval
  | assignedClientID
  | serverKeepAlive
  | authMethod
  | authData
  | requestProblemInfo
  | willDelayInterval
  | requestResponseInfo
  | responseInfo
  | serverReference
  | reasonString
  | receiveMaximum
  | topicAliasMaximum
  | topicAlias
  | maximumQOS
  | retainAvailable
  | user
  | maximumPacketSize
  | wildcardSubAvailable
  | subIDAvailable
  | sharedSubAvailable
  deriving DecidableEq, Repr

inductive PropertyValueType where
  | byte
  | twoByteInteger
  | fourByteInteger
  | variableByteInteger
  | binaryData
  | string
  | stringPair
  deriving DecidableEq, Repr

structure PropertySpec where
  id : UInt8
  name : String
  type : PropertyValueType
  allowed : List PacketType
  repeatAllowed : Bool := false

def propertySpecs : PropertyID → PropertySpec
  | .payloadFormat =>
    ⟨1, "Payload Format Indicator", .byte, [.publish, .willProperties], false⟩
  | .messageExpiry =>
    ⟨2, "Message Expiry Interval", .fourByteInteger, [.publish, .willProperties], false⟩
  | .contentType => ⟨3, "Content Type", .string, [.publish, .willProperties], false⟩
  | .responseTopic => ⟨8, "Response Topic", .string, [.publish, .willProperties], false⟩
  | .correlationData => ⟨9, "Correlation Data", .binaryData, [.publish, .willProperties], false⟩
  | .subscriptionIdentifier =>
    ⟨11, "Subscription Identifier", .variableByteInteger, [.publish, .subscribe], false⟩
  | .sessionExpiryInterval =>
    ⟨17, "Session Expiry Interval", .fourByteInteger, [.connect, .connack, .disconnect], false⟩
  | .assignedClientID => ⟨18, "Assigned Client Identifier", .string, [.connack], false⟩
  | .serverKeepAlive => ⟨19, "Server Keep Alive", .twoByteInteger, [.connack], false⟩
  | .authMethod => ⟨21, "Authentication Method", .string, [.connect, .connack, .auth], false⟩
  | .authData => ⟨22, "Authentication Data", .binaryData, [.connect, .connack, .auth], false⟩
  | .requestProblemInfo => ⟨23, "Request Problem Information", .byte, [.connect], false⟩
  | .willDelayInterval => ⟨24, "Will Delay Interval", .fourByteInteger, [.willProperties], false⟩
  | .requestResponseInfo => ⟨25, "Request Response Information", .byte, [.connect], false⟩
  | .responseInfo => ⟨26, "Response Information", .string, [.connack], false⟩
  | .serverReference => ⟨28, "Server Reference", .string, [.connack, .disconnect], false⟩
  | .reasonString =>
    ⟨31, "Reason String", .string,
      [.connack, .puback, .pubrec, .pubrel, .pubcomp, .suback, .unsuback, .disconnect, .auth],
      false⟩
  | .receiveMaximum => ⟨33, "Receive Maximum", .twoByteInteger, [.connect, .connack], false⟩
  | .topicAliasMaximum => ⟨34, "Topic Alias Maximum", .twoByteInteger, [.connect, .connack], false⟩
  | .topicAlias => ⟨35, "Topic Alias", .twoByteInteger, [.publish], false⟩
  | .maximumQOS => ⟨36, "Maximum QoS", .byte, [.connack], false⟩
  | .retainAvailable => ⟨37, "Retain Available", .byte, [.connack], false⟩
  | .user =>
    ⟨38, "User Property", .stringPair,
      [.connect, .connack, .publish, .willProperties, .puback, .pubrec, .pubrel, .pubcomp,
        .subscribe, .suback, .unsubscribe, .unsuback, .disconnect, .auth],
      true⟩
  | .maximumPacketSize => ⟨39, "Maximum Packet Size", .fourByteInteger, [.connect, .connack], false⟩
  | .wildcardSubAvailable => ⟨40, "Wildcard Subscription Available", .byte, [.connack], false⟩
  | .subIDAvailable => ⟨41, "Subscription Identifier Available", .byte, [.connack], false⟩
  | .sharedSubAvailable => ⟨42, "Shared Subscription Available", .byte, [.connack], false⟩

def PropertyID.all : List PropertyID :=
  [.payloadFormat, .messageExpiry, .contentType, .responseTopic, .correlationData,
    .subscriptionIdentifier, .sessionExpiryInterval, .assignedClientID, .serverKeepAlive,
    .authMethod, .authData, .requestProblemInfo, .willDelayInterval, .requestResponseInfo,
    .responseInfo, .serverReference, .reasonString, .receiveMaximum, .topicAliasMaximum,
    .topicAlias, .maximumQOS, .retainAvailable, .user, .maximumPacketSize,
    .wildcardSubAvailable, .subIDAvailable, .sharedSubAvailable]

def findProperty (byte : UInt8) : Option PropertyID :=
  PropertyID.all.find? fun id => (propertySpecs id).id == byte

theorem findProperty_eq_some {byte : UInt8} {id : PropertyID} :
    findProperty byte = some id ↔ (propertySpecs id).id = byte := by
  constructor
  · intro hf
    exact beq_iff_eq.mp (@List.find?_some _ (fun id => (propertySpecs id).id == byte) _ _ hf)
  · rintro rfl
    cases id <;> rfl

def packetAllowed (id : PropertyID) (packet : PacketType) : Bool :=
  (propertySpecs id).allowed.contains packet

/-- A Subscription Identifier may be repeated in a PUBLISH only. -/
def propertyRepeatAllowed (id : PropertyID) (packet : PacketType) : Bool :=
  (propertySpecs id).repeatAllowed || (id == .subscriptionIdentifier && packet == .publish)

/-! ## Values -/

structure User where
  key : Text
  value : Text
  deriving DecidableEq, Repr

inductive PropertyValue where
  | byte (value : UInt8)
  | uint16 (value : UInt16)
  | uint32 (value : UInt32)
  | vbi (value : Int)
  | binary (value : Text)
  | string (value : Text)
  | user (value : User)
  deriving DecidableEq, Repr

namespace PropertyValue

def type : PropertyValue → PropertyValueType
  | .byte _ => .byte
  | .uint16 _ => .twoByteInteger
  | .uint32 _ => .fourByteInteger
  | .vbi _ => .variableByteInteger
  | .binary _ => .binaryData
  | .string _ => .string
  | .user _ => .stringPair

def byteValue : PropertyValue → UInt8
  | .byte value => value
  | _ => 0

def uint16Value : PropertyValue → UInt16
  | .uint16 value => value
  | _ => 0

def uint32Value : PropertyValue → UInt32
  | .uint32 value => value
  | _ => 0

def vbiValue : PropertyValue → Int
  | .vbi value => value
  | _ => 0

/-- Copying an empty slice gives a nil one. -/
def binaryValue : PropertyValue → Option Text
  | .binary (first :: rest) => some (first :: rest)
  | _ => none

def stringValue : PropertyValue → Text
  | .string value => value
  | _ => []

def userValue : PropertyValue → User
  | .user value => value
  | _ => ⟨[], []⟩

end PropertyValue

abbrev PropertyField := PropertyID × PropertyValue

/-- The value has the form that the identifier asks for. -/
def Typed (field : PropertyField) : Prop := field.2.type = (propertySpecs field.1).type

/-! ## Validation -/

def validateTopicName (packet : PacketType) (field : String) (topic : Text) (allowEmpty : Bool) :
    Except WireError Unit :=
  if topic = [] then ensure allowEmpty (malformed packet.code field "topic name must be non-empty")
  else
    ensure (!topic.any fun byte => byte == 43 || byte == 35)
      (malformed packet.code field "topic name must not contain wildcards")

def validatePropertyValue (packet : PacketType) (id : PropertyID) (value : PropertyValue) :
    Except WireError Unit :=
  let fail := malformed packet.code (propertySpecs id).name
  match id with
  | .payloadFormat | .requestProblemInfo | .requestResponseInfo | .retainAvailable
  | .wildcardSubAvailable | .subIDAvailable | .sharedSubAvailable =>
    ensure (decide (value.byteValue ≤ 1)) (fail "boolean byte property must be 0 or 1")
  | .maximumQOS => ensure (decide (value.byteValue ≤ 1)) (fail "maximum QoS must be 0 or 1")
  | .receiveMaximum =>
    ensure (decide (value.uint16Value ≠ 0)) (fail "receive maximum must be non-zero")
  | .topicAlias => ensure (decide (value.uint16Value ≠ 0)) (fail "topic alias must be non-zero")
  | .maximumPacketSize =>
    ensure (decide (value.uint32Value ≠ 0)) (fail "maximum packet size must be non-zero")
  | .subscriptionIdentifier =>
    ensure (decide (value.vbiValue ≠ 0)) (fail "subscription identifier must be non-zero")
  | .responseTopic => validateTopicName packet (propertySpecs id).name value.stringValue false
  | _ => .ok ()

/-! ## Writing -/

section Codec

variable (validUTF8 : Text → Bool) (packet : PacketType) (id : PropertyID)

def appendPropertyHeader : Except WireError (List UInt8) := do
  ensure (packetAllowed id packet)
    (malformed packet.code (propertySpecs id).name "property is not allowed for packet")
  return [(propertySpecs id).id]

/-- The common form of the properties that are validated before they are written. -/
def appendProp (value : PropertyValue) (write : Except WireError (List UInt8)) :
    Except WireError (List UInt8) := do
  let header ← appendPropertyHeader packet id
  validatePropertyValue packet id value
  let bytes ← write
  return header ++ bytes

def appendPropByte (value : UInt8) : Except WireError (List UInt8) :=
  appendProp packet id (.byte value) (.ok [value])

def appendPropUint16 (value : UInt16) : Except WireError (List UInt8) :=
  appendProp packet id (.uint16 value) (.ok (writeUint16 value))

def appendPropUint32 (value : UInt32) : Except WireError (List UInt8) :=
  appendProp packet id (.uint32 value) (.ok (writeUint32 value))

def appendPropVBI (value : Int) : Except WireError (List UInt8) :=
  appendProp packet id (.vbi value) (writeVBI packet.code (propertySpecs id).name value)

def appendPropString (value : Text) : Except WireError (List UInt8) :=
  appendProp packet id (.string value)
    (writeString validUTF8 packet.code (propertySpecs id).name value)

def appendPropBinary (value : Text) : Except WireError (List UInt8) := do
  let header ← appendPropertyHeader packet id
  let bytes ← writeBinary packet.code (propertySpecs id).name value
  return header ++ bytes

def appendUserProperty (user : User) : Except WireError (List UInt8) := do
  let header ← appendPropertyHeader packet .user
  let key ← writeString validUTF8 packet.code "User Property key" user.key
  let value ← writeString validUTF8 packet.code "User Property value" user.value
  return header ++ key ++ value

def appendProperty : PropertyField → Except WireError (List UInt8)
  | (id, .byte value) => appendPropByte packet id value
  | (id, .uint16 value) => appendPropUint16 packet id value
  | (id, .uint32 value) => appendPropUint32 packet id value
  | (id, .vbi value) => appendPropVBI packet id value
  | (id, .binary value) => appendPropBinary packet id value
  | (id, .string value) => appendPropString validUTF8 packet id value
  | (_, .user value) => appendUserProperty validUTF8 packet value

/-! ## Reading -/

def readPropertyValue (id : PropertyID) : Reader WireError PropertyValue :=
  let name := (propertySpecs id).name
  match (propertySpecs id).type with
  | .byte => return .byte (← readByte packet.code name)
  | .twoByteInteger => return .uint16 (← readUint16 packet.code name)
  | .fourByteInteger => return .uint32 (← readUint32 packet.code name)
  | .variableByteInteger => do
      let value ← readVBI packet.code name
      return .vbi value
  | .binaryData => return .binary (← readBinary packet.code name)
  | .string => return .string (← readString validUTF8 packet.code name)
  | .stringPair => do
      let key ← readString validUTF8 packet.code (name ++ " key")
      let value ← readString validUTF8 packet.code (name ++ " value")
      return .user ⟨key, value⟩

def lookupProperty (byte : UInt8) : Except WireError PropertyID :=
  match findProperty byte with
  | none => .error (malformed packet.code "property id" "unknown property")
  | some id => .ok id

/-- One round of the property loop: the identifiers seen so far, and the property read. -/
def readProperty (seen : List PropertyID) : Reader WireError (List PropertyID × PropertyField) := do
  let byte ← readByte packet.code "property id"
  let id ← lookupProperty packet byte
  let fail := malformed packet.code (propertySpecs id).name
  ensure (packetAllowed id packet) (fail "property is not allowed for packet")
  ensure (propertyRepeatAllowed id packet || !seen.contains id)
    (fail "duplicate singleton property")
  let value ← readPropertyValue validUTF8 packet id
  validatePropertyValue packet id value
  return (if propertyRepeatAllowed id packet then seen else id :: seen, id, value)

/-! ## Exactness -/

/-- The values that fit their form. -/
def Writable : PropertyValue → Prop
  | .vbi value => 0 ≤ value ∧ value ≤ maxRemainingLength
  | .binary value => value.length ≤ 65535
  | .string value => ValidText validUTF8 value
  | .user user => ValidText validUTF8 user.key ∧ ValidText validUTF8 user.value
  | _ => True

def valueBytes : PropertyValue → List UInt8
  | .byte value => [value]
  | .uint16 value => writeUint16 value
  | .uint32 value => writeUint32 value
  | .vbi value => vbiDigits 4 value.toNat
  | .binary value => prefixed value
  | .string value => prefixed value
  | .user user => prefixed user.key ++ prefixed user.value

def fieldBytes (field : PropertyField) : List UInt8 :=
  (propertySpecs field.1).id :: valueBytes field.2

structure Appendable (field : PropertyField) : Prop where
  typed : Typed field
  allowed : packetAllowed field.1 packet = true
  valid : validatePropertyValue packet field.1 field.2 = .ok ()
  writable : Writable validUTF8 field.2

variable {validUTF8 packet} {id : PropertyID} {value : PropertyValue}
  {input rest bytes : List UInt8}

theorem readPropertyValue_eq_ok : readPropertyValue validUTF8 packet id input = .ok (value, rest) ↔
      Typed (id, value) ∧ Writable validUTF8 value ∧ input = valueBytes value ++ rest := by
  rw [readPropertyValue, Typed]
  cases (propertySpecs id).type <;>
    simp only [bind_eq_ok, pure_eq_ok, readByte_eq_ok, readUint16_eq_ok,
      readUint32_eq_ok, readVBI_eq_ok, readBinary_eq_ok, readString_eq_ok] <;>
    cases value <;> simp [PropertyValue.type, Writable, valueBytes]
  case variableByteInteger.vbi value =>
      constructor
      · rintro ⟨length, ⟨hb, rfl⟩, rfl⟩
        exact ⟨⟨by omega, by omega⟩, rfl⟩
      · rintro ⟨⟨hn, hb⟩, rfl⟩
        exact ⟨value.toNat, ⟨by omega, rfl⟩, by omega⟩
  case stringPair.user user =>
      constructor
      · rintro ⟨key, value, ⟨keyOk, rfl⟩, valOk, rfl⟩
        exact ⟨⟨keyOk, valOk⟩, rfl⟩
      · rintro ⟨⟨keyOk, valOk⟩, rfl⟩
        exact ⟨user.key, user.value, ⟨keyOk, rfl⟩, valOk, rfl⟩

theorem appendPropertyHeader_eq_ok : appendPropertyHeader packet id = .ok bytes ↔
      packetAllowed id packet = true ∧ bytes = [(propertySpecs id).id] := by
  simp only [appendPropertyHeader, exceptBind_eq_ok, ensure_eq_ok]
  constructor
  · rintro ⟨-, ha, he⟩
    exact ⟨ha, (Except.ok.inj he).symm⟩
  · rintro ⟨ha, rfl⟩
    exact ⟨(), ha, rfl⟩

theorem validatePropertyValue_unchecked
    (hu : (propertySpecs id).type = .binaryData ∨ (propertySpecs id).type = .stringPair) :
    validatePropertyValue packet id value = .ok () := by
  cases id <;> first | rfl | simp [propertySpecs] at hu

theorem eq_user_of_stringPair (hp : (propertySpecs id).type = .stringPair) : id = .user := by
  cases id <;> first | rfl | simp [propertySpecs] at hp

theorem appendProp_eq_ok {write : Except WireError (List UInt8)} :
    appendProp packet id value write = .ok bytes ↔
      packetAllowed id packet = true ∧ validatePropertyValue packet id value = .ok () ∧
        ∃ body, write = .ok body ∧ bytes = (propertySpecs id).id :: body := by
  simp only [appendProp, exceptBind_eq_ok, appendPropertyHeader_eq_ok]
  constructor
  · rintro ⟨_, ⟨ha, rfl⟩, ⟨⟩, hv, body, hw, he⟩
    exact ⟨ha, hv, body, hw, (Except.ok.inj he).symm⟩
  · rintro ⟨ha, hv, body, hw, rfl⟩
    exact ⟨_, ⟨ha, rfl⟩, (), hv, body, hw, rfl⟩

theorem appendProperty_eq_ok {field : PropertyField} (ht : Typed field) :
    appendProperty validUTF8 packet field = .ok bytes ↔
      Appendable validUTF8 packet field ∧ bytes = fieldBytes field := by
  obtain ⟨id, value⟩ := field
  have hp : Appendable validUTF8 packet (id, value) ↔ packetAllowed id packet = true ∧
      validatePropertyValue packet id value = .ok () ∧ Writable validUTF8 value :=
    ⟨fun hf => ⟨hf.allowed, hf.valid, hf.writable⟩, fun ⟨ha, hv, hw⟩ => ⟨ht, ha, hv, hw⟩⟩
  rw [hp, fieldBytes]
  cases value with
  | byte value => simp [appendProperty, appendPropByte, appendProp_eq_ok, Writable, valueBytes,
    and_assoc]
  | uint16 value =>
    simp [appendProperty, appendPropUint16, appendProp_eq_ok, Writable, valueBytes, and_assoc]
  | uint32 value =>
    simp [appendProperty, appendPropUint32, appendProp_eq_ok, Writable, valueBytes, and_assoc]
  | vbi value =>
    simp [appendProperty, appendPropVBI, appendProp_eq_ok, writeVBI_eq_ok, Writable, valueBytes,
      and_assoc]
  | string value =>
    simp [appendProperty, appendPropString, appendProp_eq_ok, writeString_eq_ok, Writable,
      valueBytes, and_assoc]
  | binary value =>
    have hv := @validatePropertyValue_unchecked packet id (.binary value) (.inl ht.symm)
    simp only [appendProperty, appendPropBinary, exceptBind_eq_ok, appendPropertyHeader_eq_ok,
      writeBinary_eq_ok, hv, true_and, Writable, valueBytes]
    constructor
    · rintro ⟨_, ⟨ha, rfl⟩, _, ⟨hb, rfl⟩, he⟩
      exact ⟨⟨ha, hb⟩, (Except.ok.inj he).symm⟩
    · rintro ⟨⟨ha, hb⟩, rfl⟩
      exact ⟨_, ⟨ha, rfl⟩, _, ⟨hb, rfl⟩, rfl⟩
  | user user =>
    obtain rfl := eq_user_of_stringPair ht.symm
    have hv := @validatePropertyValue_unchecked packet .user (.user user) (.inr rfl)
    simp only [appendProperty, appendUserProperty, exceptBind_eq_ok, appendPropertyHeader_eq_ok,
      writeString_eq_ok, hv, true_and, Writable, valueBytes]
    constructor
    · rintro ⟨_, ⟨ha, rfl⟩, _, ⟨key, rfl⟩, _, ⟨value, rfl⟩, he⟩
      exact ⟨⟨ha, key, value⟩, (Except.ok.inj he).symm⟩
    · rintro ⟨⟨ha, key, value⟩, rfl⟩
      exact ⟨_, ⟨ha, rfl⟩, _, ⟨key, rfl⟩, _, ⟨value, rfl⟩, rfl⟩

theorem lookupProperty_eq_ok {byte : UInt8} :
    lookupProperty packet byte = .ok id ↔ (propertySpecs id).id = byte := by
  rw [← findProperty_eq_some, lookupProperty]
  cases findProperty byte <;> simp

/-- One round reads one property that may be written here, unless it is an unwanted
repetition. -/
theorem readProperty_eq_ok {seen seen' : List PropertyID} {field : PropertyField} :
    readProperty validUTF8 packet seen input = .ok ((seen', field), rest) ↔
      Appendable validUTF8 packet field ∧
        (propertyRepeatAllowed field.1 packet = true ∨ field.1 ∉ seen) ∧
        seen' = (if propertyRepeatAllowed field.1 packet then seen else field.1 :: seen) ∧
        input = fieldBytes field ++ rest := by
  obtain ⟨id, value⟩ := field
  simp only [readProperty, bind_eq_ok, lift_eq_ok, pure_eq_ok, readByte_eq_ok,
    lookupProperty_eq_ok, ensure_eq_ok, readPropertyValue_eq_ok, Bool.or_eq_true]
  constructor
  · rintro ⟨_, _, rfl, _, _, ⟨rfl, rfl⟩, -, _, ⟨ha, rfl⟩, -, _, ⟨hf, rfl⟩, value', _,
      ⟨ht, hw, rfl⟩, ⟨⟩, _, ⟨hv, rfl⟩, he, rfl⟩
    cases he
    exact ⟨⟨ht, ha, hv, hw⟩, by simpa using hf, rfl, rfl⟩
  · rintro ⟨⟨ht, ha, hv, hw⟩, hf, rfl, rfl⟩
    exact ⟨_, _, rfl, id, _, ⟨rfl, rfl⟩, (), _, ⟨ha, rfl⟩, (), _, ⟨by simpa using hf, rfl⟩,
      value, _, ⟨ht, hw, rfl⟩, (), _, ⟨hv, rfl⟩, rfl, rfl⟩

end Codec

end SkyTree.Wire
