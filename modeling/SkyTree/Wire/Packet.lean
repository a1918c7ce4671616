import SkyTree.Wire.PropertySet

/-!
# Control packets

The property records of the packets, each with its slots in the order of the encoder, and
the packets themselves.
-/

namespace SkyTree.Wire

open Foundation List

/-! ## Property records -/

structure PublishProperties where
  payloadFormat : Option UInt8 := none
  messageExpiry : Option UInt32 := none
  willDelayInterval : Option UInt32 := none
  contentType : Text := []
  responseTopic : Text := []
  correlationData : Option Text := none
  topicAlias : Option UInt16 := none
  subscriptionIdentifier : List Int := []
  user : List User := []
  deriving DecidableEq, Repr

def assignPublishProperty (p : PublishProperties) (id : PropertyID) (value : PropertyValue) :
    PublishProperties :=
  match id with
  | .payloadFormat => { p with payloadFormat := some value.byteValue }
  | .messageExpiry => { p with messageExpiry := some value.uint32Value }
  | .willDelayInterval => { p with willDelayInterval := some value.uint32Value }
  | .contentType => { p with contentType := value.stringValue }
  | .responseTopic => { p with responseTopic := value.stringValue }
  | .correlationData => { p with correlationData := value.binaryValue }
  | .topicAlias => { p with topicAlias := some value.uint16Value }
  | .subscriptionIdentifier =>
    { p with subscriptionIdentifier := p.subscriptionIdentifier ++ [value.vbiValue] }
  | .user => { p with user := p.user ++ [value.userValue] }
  | _ => p

/-- Absent and empty byte strings are the same. -/
def normalizeBinary : Option Text → Option Text
  | some [] => none
  | data => data

theorem binary_normalizeBinary (data : Option Text) :
    Slot.binary (normalizeBinary data) = (Slot.binary data).normalize := by
  cases data with
  | none => rfl
  | some data => cases data <;> rfl

instance : PropertySet PublishProperties where
  empty := {}
  assign p field := assignPublishProperty p field.1 field.2
  table p :=
    [(.payloadFormat, .byte p.payloadFormat),
      (.messageExpiry, .uint32 p.messageExpiry),
      (.willDelayInterval, .uint32 p.willDelayInterval),
      (.contentType, .string p.contentType),
      (.responseTopic, .string p.responseTopic),
      (.correlationData, .binary p.correlationData),
      (.topicAlias, .uint16 p.topicAlias),
      (.subscriptionIdentifier, .vbis p.subscriptionIdentifier),
      (.user, .users p.user)]
  normalize p := { p with correlationData := normalizeBinary p.correlationData }
  table_normalize p := by
    simp only [map_cons, map_nil, binary_normalizeBinary]
    rfl

structure ConnectProperties where
  sessionExpiryInterval : Option UInt32 := none
  authMethod : Text := []
  authData : Option Text := none
  requestProblemInfo : Option UInt8 := none
  requestResponseInfo : Option UInt8 := none
  receiveMaximum : Option UInt16 := none
  topicAliasMaximum : Option UInt16 := none
  maximumPacketSize : Option UInt32 := none
  user : List User := []
  deriving DecidableEq, Repr

def assignConnectProperty (p : ConnectProperties) (id : PropertyID) (value : PropertyValue) :
    ConnectProperties :=
  match id with
  | .sessionExpiryInterval => { p with sessionExpiryInterval := some value.uint32Value }
  | .authMethod => { p with authMethod := value.stringValue }
  | .authData => { p with authData := value.binaryValue }
  | .requestProblemInfo => { p with requestProblemInfo := some value.byteValue }
  | .requestResponseInfo => { p with requestResponseInfo := some value.byteValue }
  | .receiveMaximum => { p with receiveMaximum := some value.uint16Value }
  | .topicAliasMaximum => { p with topicAliasMaximum := some value.uint16Value }
  | .maximumPacketSize => { p with maximumPacketSize := some value.uint32Value }
  | .user => { p with user := p.user ++ [value.userValue] }
  | _ => p

instance : PropertySet ConnectProperties where
  empty := {}
  assign p field := assignConnectProperty p field.1 field.2
  table p :=
    [(.sessionExpiryInterval, .uint32 p.sessionExpiryInterval),
      (.authMethod, .string p.authMethod),
      (.authData, .binary p.authData),
      (.requestProblemInfo, .byte p.requestProblemInfo),
      (.requestResponseInfo, .byte p.requestResponseInfo),
      (.receiveMaximum, .uint16 p.receiveMaximum),
      (.topicAliasMaximum, .uint16 p.topicAliasMaximum),
      (.maximumPacketSize, .uint32 p.maximumPacketSize),
      (.user, .users p.user)]
  normalize p := { p with authData := normalizeBinary p.authData }
  table_normalize p := by
    simp only [map_cons, map_nil, binary_normalizeBinary]
    rfl

structure ConnAckProperties where
  sessionExpiryInterval : Option UInt32 := none
  assignedClientID : Text := []
  serverKeepAlive : Option UInt16 := none
  authMethod : Text := []
  authData : Option Text := none
  responseInfo : Text := []
  serverReference : Text := []
  reasonString : Text := []
  receiveMaximum : Option UInt16 := none
  topicAliasMaximum : Option UInt16 := none
  maximumQOS : Option UInt8 := none
  retainAvailable : Option UInt8 := none
  wildcardSubAvailable : Option UInt8 := none
  subIDAvailable : Option UInt8 := none
  sharedSubAvailable : Option UInt8 := none
  maximumPacketSize : Option UInt32 := none
  user : List User := []
  deriving DecidableEq, Repr

def assignConnackProperty (p : ConnAckProperties) (id : PropertyID) (value : PropertyValue) :
    ConnAckProperties :=
  match id with
  | .sessionExpiryInterval => { p with sessionExpiryInterval := some value.uint32Value }
  | .assignedClientID => { p with assignedClientID := value.stringValue }
  | .serverKeepAlive => { p with serverKeepAlive := some value.uint16Value }
  | .authMethod => { p with authMethod := value.stringValue }
  | .authData => { p with authData := value.binaryValue }
  | .responseInfo => { p with responseInfo := value.stringValue }
  | .serverReference => { p with serverReference := value.stringValue }
  | .reasonString => { p with reasonString := value.stringValue }
  | .receiveMaximum => { p with receiveMaximum := some value.uint16Value }
  | .topicAliasMaximum => { p with topicAliasMaximum := some value.uint16Value }
  | .maximumQOS => { p with maximumQOS := some value.byteValue }
  | .retainAvailable => { p with retainAvailable := some value.byteValue }
  | .wildcardSubAvailable => { p with wildcardSubAvailable := some value.byteValue }
  | .subIDAvailable => { p with subIDAvailable := some value.byteValue }
  | .sharedSubAvailable => { p with sharedSubAvailable := some value.byteValue }
  | .maximumPacketSize => { p with maximumPacketSize := some value.uint32Value }
  | .user => { p with user := p.user ++ [value.userValue] }
  | _ => p

instance : PropertySet ConnAckProperties where
  empty := {}
  assign p field := assignConnackProperty p field.1 field.2
  table p :=
    [(.sessionExpiryInterval, .uint32 p.sessionExpiryInterval),
      (.assignedClientID, .string p.assignedClientID),
      (.authMethod, .string p.authMethod),
      (.responseInfo, .string p.responseInfo),
      (.serverReference, .string p.serverReference),
      (.reasonString, .string p.reasonString),
      (.serverKeepAlive, .uint16 p.serverKeepAlive),
      (.authData, .binary p.authData),
      (.receiveMaximum, .uint16 p.receiveMaximum),
      (.topicAliasMaximum, .uint16 p.topicAliasMaximum),
      (.maximumQOS, .byte p.maximumQOS),
      (.retainAvailable, .byte p.retainAvailable),
      (.wildcardSubAvailable, .byte p.wildcardSubAvailable),
      (.subIDAvailable, .byte p.subIDAvailable),
      (.sharedSubAvailable, .byte p.sharedSubAvailable),
      (.maximumPacketSize, .uint32 p.maximumPacketSize),
      (.user, .users p.user)]
  normalize p := { p with authData := normalizeBinary p.authData }
  table_normalize p := by
    simp only [map_cons, map_nil, binary_normalizeBinary]
    rfl

structure SubscribeProperties where
  subscriptionIdentifier : Option Int := none
  user : List User := []
  deriving DecidableEq, Repr

def assignSubscribeProperty (p : SubscribeProperties) (id : PropertyID) (value : PropertyValue) :
    SubscribeProperties :=
  match id with
  | .subscriptionIdentifier => { p with subscriptionIdentifier := some value.vbiValue }
  | .user => { p with user := p.user ++ [value.userValue] }
  | _ => p

instance : PropertySet SubscribeProperties where
  empty := {}
  assign p field := assignSubscribeProperty p field.1 field.2
  table p :=
    [(.subscriptionIdentifier, .vbi p.subscriptionIdentifier),
      (.user, .users p.user)]
  normalize p := p

/-- Properties of SUBACK, UNSUBACK, PUBACK, PUBREC, PUBREL and PUBCOMP. -/
structure ReasonProperties where
  reasonString : Text := []
  user : List User := []
  deriving DecidableEq, Repr

def assignReasonUserProperty (p : ReasonProperties) (id : PropertyID) (value : PropertyValue) :
    ReasonProperties :=
  match id with
  | .reasonString => { p with reasonString := value.stringValue }
  | .user => { p with user := p.user ++ [value.userValue] }
  | _ => p

instance : PropertySet ReasonProperties where
  empty := {}
  assign p field := assignReasonUserProperty p field.1 field.2
  table p :=
    [(.reasonString, .string p.reasonString),
      (.user, .users p.user)]
  normalize p := p

structure UnsubscribeProperties where
  user : List User := []
  deriving DecidableEq, Repr

def assignUnsubscribeProperty (p : UnsubscribeProperties) (id : PropertyID)
    (value : PropertyValue) : UnsubscribeProperties :=
  match id with
  | .user => { p with user := p.user ++ [value.userValue] }
  | _ => p

instance : PropertySet UnsubscribeProperties where
  empty := {}
  assign p field := assignUnsubscribeProperty p field.1 field.2
  table p :=
    [(.user, .users p.user)]
  normalize p := p

structure DisconnectProperties where
  sessionExpiryInterval : Option UInt32 := none
  serverReference : Text := []
  reasonString : Text := []
  user : List User := []
  deriving DecidableEq, Repr

def assignDisconnectProperty (p : DisconnectProperties) (id : PropertyID) (value : PropertyValue) :
    DisconnectProperties :=
  match id with
  | .sessionExpiryInterval => { p with sessionExpiryInterval := some value.uint32Value }
  | .serverReference => { p with serverReference := value.stringValue }
  | .reasonString => { p with reasonString := value.stringValue }
  | .user => { p with user := p.user ++ [value.userValue] }
  | _ => p

instance : PropertySet DisconnectProperties where
  empty := {}
  assign p field := assignDisconnectProperty p field.1 field.2
  table p :=
    [(.sessionExpiryInterval, .uint32 p.sessionExpiryInterval),
      (.serverReference, .string p.serverReference),
      (.reasonString, .string p.reasonString),
      (.user, .users p.user)]
  normalize p := p

structure AuthProperties where
  authMethod : Text := []
  authData : Option Text := none
  reasonString : Text := []
  user : List User := []
  deriving DecidableEq, Repr

def assignAuthProperty (p : AuthProperties) (id : PropertyID) (value : PropertyValue) :
    AuthProperties :=
  match id with
  | .authMethod => { p with authMethod := value.stringValue }
  | .authData => { p with authData := value.binaryValue }
  | .reasonString => { p with reasonString := value.stringValue }
  | .user => { p with user := p.user ++ [value.userValue] }
  | _ => p

instance : PropertySet AuthProperties where
  empty := {}
  assign p field := assignAuthProperty p field.1 field.2
  table p :=
    [(.authMethod, .string p.authMethod),
      (.authData, .binary p.authData),
      (.reasonString, .string p.reasonString),
      (.user, .users p.user)]
  normalize p := { p with authData := normalizeBinary p.authData }
  table_normalize p := by
    simp only [map_cons, map_nil, binary_normalizeBinary]
    rfl

/-! ## Packets -/

structure Connect where
  willMessage : Text
  password : Text
  username : Text
  protocolName : Text
  clientID : Text
  willTopic : Text
  properties : Option ConnectProperties
  willProperties : Option PublishProperties
  keepAlive : UInt16
  protocolVersion : UInt8
  willQOS : UInt8
  passwordFlag : Bool
  usernameFlag : Bool
  willRetain : Bool
  willFlag : Bool
  cleanStart : Bool
  deriving DecidableEq, Repr

structure ConnAck where
  properties : Option ConnAckProperties
  reasonCode : UInt8
  sessionPresent : Bool
  deriving DecidableEq, Repr

structure Publish where
  payload : List UInt8
  topic : Text
  properties : Option PublishProperties
  packetID : UInt16
  qos : UInt8
  duplicate : Bool
  retain : Bool
  deriving DecidableEq, Repr

/-- PUBACK, PUBREC, PUBREL and PUBCOMP. -/
structure Ack where
  properties : Option ReasonProperties
  packetID : UInt16
  reasonCode : UInt8
  deriving DecidableEq, Repr

structure SubOptions where
  topic : Text
  qos : UInt8
  retainHandling : UInt8
  noLocal : Bool
  retainAsPublished : Bool
  deriving DecidableEq, Repr

/-- SUBSCRIBE and UNSUBSCRIBE, with the filters and properties of each. -/
structure FilterList (F P : Type) where
  properties : Option P
  filters : List F
  packetID : UInt16
  deriving DecidableEq, Repr

abbrev Subscribe := FilterList SubOptions SubscribeProperties

abbrev Unsubscribe := FilterList Text UnsubscribeProperties

/-- SUBACK and UNSUBACK. -/
structure CodeList where
  properties : Option ReasonProperties
  reasons : List UInt8
  packetID : UInt16
  deriving DecidableEq, Repr

/-- DISCONNECT and AUTH, with the properties of each. -/
structure ReasonPacket (P : Type) where
  properties : Option P
  reasonCode : UInt8
  deriving DecidableEq, Repr

inductive Packet where
  | connect (p : Connect)
  | connack (p : ConnAck)
  | publish (p : Publish)
  | puback (p : Ack)
  | pubrec (p : Ack)
  | pubrel (p : Ack)
  | pubcomp (p : Ack)
  | subscribe (p : Subscribe)
  | suback (p : CodeList)
  | unsubscribe (p : Unsubscribe)
  | unsuback (p : CodeList)
  | pingreq
  | pingresp
  | disconnect (p : ReasonPacket DisconnectProperties)
  | auth (p : ReasonPacket AuthProperties)
  deriving DecidableEq, Repr

def Packet.packetType : Packet → PacketType
  | .connect _ => .connect
  | .connack _ => .connack
  | .publish _ => .publish
  | .puback _ => .puback
  | .pubrec _ => .pubrec
  | .pubrel _ => .pubrel
  | .pubcomp _ => .pubcomp
  | .subscribe _ => .subscribe
  | .suback _ => .suback
  | .unsubscribe _ => .unsubscribe
  | .unsuback _ => .unsuback
  | .pingreq => .pingreq
  | .pingresp => .pingresp
  | .disconnect _ => .disconnect
  | .auth _ => .auth

/-- `Content` and its older name `Packet`, with the fields of the fixed header. -/
structure ControlPacket where
  content : Option Packet
  packet : Option Packet
  type : UInt8
  flags : UInt8
  remainingLength : Int
  deriving DecidableEq, Repr

def ControlPacket.canonicalPacket (cp : ControlPacket) : Option Packet :=
  match cp.content with
  | some content => some content
  | none => cp.packet

/-! ## Equal contents

Absent and empty property sets and byte strings carry the same information, and so do
CONNECT packets that differ in fields whose flag is off only.
-/

def normalizeProperties {P : Type} [PropertySet P] (props : Option P) : Option P :=
  some (PropertySet.normalize (props.getD PropertySet.empty))

def Connect.normalize (p : Connect) : Connect :=
  { p with
    properties := normalizeProperties p.properties
    willProperties := if p.willFlag then normalizeProperties p.willProperties else none
    willTopic := if p.willFlag then p.willTopic else []
    willMessage := if p.willFlag then p.willMessage else []
    username := if p.usernameFlag then p.username else []
    password := if p.passwordFlag then p.password else [] }

def ConnAck.normalize (p : ConnAck) : ConnAck :=
  { p with properties := normalizeProperties p.properties }

def Publish.normalize (p : Publish) : Publish :=
  { p with properties := normalizeProperties p.properties }

def Ack.normalize (p : Ack) : Ack :=
  { p with properties := normalizeProperties p.properties }

def FilterList.normalize {F P : Type} [PropertySet P] (p : FilterList F P) : FilterList F P :=
  { p with properties := normalizeProperties p.properties }

def CodeList.normalize (p : CodeList) : CodeList :=
  { p with properties := normalizeProperties p.properties }

def ReasonPacket.normalize {P : Type} [PropertySet P] (p : ReasonPacket P) : ReasonPacket P :=
  { p with properties := normalizeProperties p.properties }

def Packet.normalize : Packet → Packet
  | .connect p => .connect p.normalize
  | .connack p => .connack p.normalize
  | .publish p => .publish p.normalize
  | .puback p => .puback p.normalize
  | .pubrec p => .pubrec p.normalize
  | .pubrel p => .pubrel p.normalize
  | .pubcomp p => .pubcomp p.normalize
  | .subscribe p => .subscribe p.normalize
  | .suback p => .suback p.normalize
  | .unsubscribe p => .unsubscribe p.normalize
  | .unsuback p => .unsuback p.normalize
  | .pingreq => .pingreq
  | .pingresp => .pingresp
  | .disconnect p => .disconnect p.normalize
  | .auth p => .auth p.normalize

end SkyTree.Wire
