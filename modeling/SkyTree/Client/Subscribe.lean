import SkyTree.Client.Close
import SkyTree.Delivery.ShareGroupTasks

/-!
# SUBSCRIBE and UNSUBSCRIBE

A SUBSCRIBE passes the plugins, the checks of its filters and of the server's capabilities,
and is then written filter by filter. The reason codes are put together from the refused
filters and the answers of the subscription center, in the order of the packet.
-/

namespace SkyTree.Client

open Session Subscription Delivery.Router

structure SubOptions where
  topic : String
  qos : Nat
  noLocal : Bool := false
  retainAsPublished : Bool := false
  retainHandling : Nat := 0
  deriving DecidableEq, Repr

structure SubscribePacket where
  packetID : PacketID := 1
  subscriptionIdentifier : Option Nat := none
  subscriptions : List SubOptions
  deriving DecidableEq, Repr

/-- The capabilities the server announced. Shared subscriptions also need the runtime's
support. The configuration is normalized, so that the QoS limit is one. -/
structure ConnectAckProperty where
  maxQos : Nat := 2
  retainAvailable : Bool := true
  wildcardSubscriptionAvailable : Bool := true
  subscriptionIdentifierAvailable : Bool := true
  sharedSubscriptionAvailable : Bool := true
  bounded : maxQos ≤ 2 := by decide

structure Writer where
  clientID : ClientID
  ownerToken : OwnerToken
  localNodeID : Nat := 1
  deriving DecidableEq, Repr

/-! ## Checks -/

structure ProtocolFailure where
  code : Nat
  reason : String
  deriving DecidableEq, Repr

def invalidSubscribeTopicFilter (filter : String) : Bool :=
  match validateTopicFilterSyntax filter with
  | .ok () => false
  | .error _ => true

/-- The reason code with which the precheck refuses a filter; zero lets it pass. -/
def rejectedReason (sub : SubOptions) : Nat :=
  if invalidSubscribeTopicFilter sub.topic then 0x8F else 0

def applySubscribeTopicValidation (packet : SubscribePacket) : Except ProtocolFailure (List Nat) :=
  packet.subscriptions.mapM fun sub =>
    if invalidSubscribeTopicFilter sub.topic then .ok 0x8F
    else if isSharedSubscription sub.topic && sub.noLocal then
      .error ⟨0x82, "No Local is not allowed on shared subscriptions"⟩
    else .ok 0

def mqtt5SubscriptionIdentifierMin : Nat := 1

def mqtt5SubscriptionIdentifierMax : Nat := 268435455

def validateSubscriptionIdentifier (packet : SubscribePacket) : Except ProtocolFailure Unit :=
  match packet.subscriptionIdentifier with
  | none => .ok ()
  | some id =>
    if mqtt5SubscriptionIdentifierMin ≤ id ∧ id ≤ mqtt5SubscriptionIdentifierMax then .ok ()
    else .error ⟨0x81, "subscription identifier " ++ toString id ++ " out of range [1, 268435455]"⟩

/-- Refused filters are not looked at again. -/
def checkCapabilities (prop : ConnectAckProperty) :
    List (SubOptions × Nat) → Except ProtocolFailure Unit
  | [] => .ok ()
  | (sub, rejected) :: rest =>
    if rejected ≠ 0 ∨ sub.topic = "" then checkCapabilities prop rest
    else if hasWildcard sub.topic && !prop.wildcardSubscriptionAvailable then
      .error ⟨0xA2, "wildcard subscriptions are not supported: " ++ sub.topic⟩
    else if isSharedSubscription sub.topic && !prop.sharedSubscriptionAvailable then
      .error ⟨0x9E, "shared subscriptions are not supported: " ++ sub.topic⟩
    else checkCapabilities prop rest

def applySubscribeCapabilities (prop : ConnectAckProperty) (packet : SubscribePacket)
    (rejectedReasons : List Nat) : Except ProtocolFailure Unit :=
  if !prop.subscriptionIdentifierAvailable && packet.subscriptionIdentifier.isSome then
    .error ⟨0xA1, "subscription identifiers are not supported"⟩
  else checkCapabilities prop (packet.subscriptions.zip rejectedReasons)

def precheckSubscribe (prop : ConnectAckProperty) (packet : SubscribePacket) :
    Except ProtocolFailure (List Nat) := do
  let rejectedReasons ← applySubscribeTopicValidation packet
  validateSubscriptionIdentifier packet
  applySubscribeCapabilities prop packet rejectedReasons
  return rejectedReasons

def filteredSubscriptions (packet : SubscribePacket) (rejectedReasons : List Nat) :
    List SubOptions :=
  (packet.subscriptions.zip rejectedReasons).filterMap fun entry =>
    if entry.2 = 0 then some entry.1 else none

/-! ## Writing -/

/-- One entry as the center stores it, its QoS capped. -/
def protoSubOption (maxQos : Nat) (subscriptionIdentifier : Option Nat) (sub : SubOptions) :
    SubOption where
  topic := sub.topic
  qos := (if maxQos < sub.qos then maxQos else sub.qos : Nat)
  retainAsPublished := sub.retainAsPublished
  noLocal := sub.noLocal
  retainHandling := sub.retainHandling
  subscriptionIdentifier := (subscriptionIdentifier.getD 0 : Nat)

/-- `CreateSub` reports an error for a filter the center refuses, unless it is fenced. -/
def createSubFails (center : MemorySubCenter) (writer : Writer) (option : SubOption) : Bool :=
  !(writer.ownerToken ≠ "" ∧ center.getOwnerToken writer.clientID ≠ "" ∧
      center.getOwnerToken writer.clientID ≠ writer.ownerToken) &&
    match validateTopicFilter option.topic with
    | .ok () => false
    | .error _ => true

/-- The loop of the state router: one request per entry, `-1` for an entry without an answer. -/
def subscribeEach (writer : Writer) (toOption : SubOptions → SubOption) :
    List SubOptions → MemorySubCenter → Except MemorySubCenter (MemorySubCenter × List Int)
  | [], center => .ok (center, [])
  | sub :: rest, center =>
    let result := center.createSub writer.clientID writer.ownerToken [toOption sub]
    if createSubFails center writer (toOption sub) then .error result.1
    else
      match subscribeEach writer toOption rest result.1 with
      | .error failed => .error failed
      | .ok (last, granted) => .ok (last, (result.2.lookup sub.topic).getD (-1) :: granted)

def routerSubscribe (center : MemorySubCenter) (writer : Writer) (maxQos : Nat)
    (subscriptionIdentifier : Option Nat) (subs : List SubOptions) :
    Except MemorySubCenter (MemorySubCenter × List Int) :=
  match validateClientOwnerRequest writer.clientID writer.ownerToken writer.localNodeID with
  | .error _ => .error center
  | .ok () => subscribeEach writer (protoSubOption maxQos subscriptionIdentifier) subs center

def subscribeAckQoS (granted : Int) (maxQos : Nat) : Int :=
  if granted < 0 then granted else if (maxQos : Int) < granted then maxQos else granted

def int32ToQoS (qos : Int) : Nat := if qos = 1 then 1 else if qos = 2 then 2 else 0

def buildSubAckReasons (maxQos : Nat) :
    List (SubOptions × Nat) → List Int → List Nat × List SubOptions
  | [], _ => ([], [])
  | (sub, rejected) :: rest, granted =>
    if rejected ≠ 0 then
      let later := buildSubAckReasons maxQos rest granted
      (rejected :: later.1, later.2)
    else
      match granted with
      | [] =>
        let later := buildSubAckReasons maxQos rest []
        (0x80 :: later.1, later.2)
      | answer :: granted =>
        let later := buildSubAckReasons maxQos rest granted
        if subscribeAckQoS answer maxQos < 0 then (0x80 :: later.1, later.2)
        else (int32ToQoS (subscribeAckQoS answer maxQos) :: later.1, sub :: later.2)

/-- What a SUBSCRIBE leads to: a DISCONNECT, a handler error without an answer, or a SUBACK. -/
inductive SubscribeOutcome where
  | refused (failure : ProtocolFailure)
  | failed (center : MemorySubCenter)
  | acknowledged (center : MemorySubCenter) (reasons : List Nat) (granted : List SubOptions)

def handleSub (prop : ConnectAckProperty) (writer : Writer) (denied : Bool)
    (packet : SubscribePacket) (center : MemorySubCenter) : SubscribeOutcome :=
  if denied then .acknowledged center (packet.subscriptions.map fun _ => 0x87) []
  else
    match precheckSubscribe prop packet with
    | .error failure => .refused failure
    | .ok rejectedReasons =>
      let filtered := filteredSubscriptions packet rejectedReasons
      if (rejectedReasons.any fun reason => reason ≠ 0) ∧ filtered = [] then
        .acknowledged center rejectedReasons []
      else
        match routerSubscribe center writer prop.maxQos packet.subscriptionIdentifier filtered with
        | .error failed => .failed failed
        | .ok (next, granted) =>
          let acks := buildSubAckReasons prop.maxQos (packet.subscriptions.zip rejectedReasons)
            granted
          .acknowledged next acks.1 acks.2

/-! ## UNSUBSCRIBE -/

/-- The refused topics have a code, the others are passed on. -/
def precheckUnsubscribeTopics (topics : List String) : List Nat × List String :=
  (topics.map fun topic => if invalidSubscribeTopicFilter topic then 0x8F else 0,
    topics.filter fun topic => !invalidSubscribeTopicFilter topic)

def buildUnsubAckReasons : List Nat → List Int → List Nat
  | [], _ => []
  | rejected :: rest, answers =>
    if rejected ≠ 0 then rejected :: buildUnsubAckReasons rest answers
    else
      match answers with
      | [] => 0x80 :: buildUnsubAckReasons rest []
      | answer :: answers =>
        (if answer = -1 then 0x80 else answer.toNat % 256) :: buildUnsubAckReasons rest answers

/-- The center after an UNSUBSCRIBE and the codes of the UNSUBACK. -/
def handleUnsub (writer : Writer) (denied : Bool) (topics : List String)
    (center : MemorySubCenter) : MemorySubCenter × List Nat :=
  if denied then (center, topics.map fun _ => 0x87)
  else
    let checked := precheckUnsubscribeTopics topics
    if checked.2 = [] then (center, checked.1)
    else
      let result := center.deleteSub writer.clientID writer.ownerToken checked.2
      (result.1, buildUnsubAckReasons checked.1 result.2)

/-! ## Retained messages -/

def readExistingSessionSubscriptions (center : MemorySubCenter) (clientID : ClientID)
    (packet : SubscribePacket) : List String :=
  (packet.subscriptions.filter fun sub => sub.topic ≠ "" &&
    (center.getClientSubscriptions clientID).any fun option => option.topic = sub.topic).map
    SubOptions.topic

def shouldSendRetainedForSubscription (sub : SubOptions) (existed : List String) : Bool :=
  if isSharedSubscription sub.topic then false
  else if sub.topic = "" ∨ sub.retainHandling = 2 then false
  else sub.retainHandling ≠ 1 || !existed.contains sub.topic

def markSubscriptionAsExisting (sub : SubOptions) (existed : List String) : List String :=
  if sub.retainHandling ≠ 1 ∨ sub.topic = "" ∨ isSharedSubscription sub.topic then existed
  else sub.topic :: existed

def sendRetainedAfterSubscribe : List SubOptions → List String → List Bool
  | [], _ => []
  | sub :: rest, existed =>
    shouldSendRetainedForSubscription sub existed ::
      sendRetainedAfterSubscribe rest (markSubscriptionAsExisting sub existed)

end SkyTree.Client
