import SkyTree.Client.OutboundSteps

/-!
# The publish window under interleaving

The delivery runner, the handler of incoming packets and the senders of retained messages
share the inflight table and the publish bucket without a common lock: only the single
table and bucket calls are atomic. An operation of a goroutine is a sequence of such steps,
interleaved with those of other goroutines while the connection's context is live.
-/

namespace SkyTree.Client

open Foundation Delivery Session Mqtt

/-- The goroutines of a connection; each SUBSCRIBE starts one that sends retained
messages. -/
inductive Thread where
  | runner
  | handler
  | retained (subscribe : Nat)
  deriving DecidableEq

inductive Outgoing where
  | delivery (task : DeliveryTask) (packetID : PacketID) (now : Nat)
  | retained (packetID : PacketID) (qos ts : Nat) (messageID : UUID) (packet : Publish)

def Outgoing.entry : Outgoing → InflightEntry
  | .delivery task packetID now => newDeliveryInflightEntry task packetID now
  | .retained packetID qos ts messageID packet =>
    newRetainedInflightEntry packetID qos ts messageID packet

inductive NextStep where
  -- `prepareDeliveryQoSAndInflight`, `writeRetainedPublish` and `releaseDeliveryInflight`
  | getToken (outgoing : Outgoing)
  | put (outgoing : Outgoing)
  | putTokenAndClose
  | close
  | write (packetID : PacketID)
  | delete (packetID : PacketID)
  -- `maybeRetransmitOutgoingInflight` and `handleOutgoingRetransmitError`
  | tryGetToken (packetID : PacketID)
  | markFlowTokenHeld (packetID : PacketID)
  | resend (entry : InflightEntry) (tokenAcquired : Bool)
  | deleteResent (packetID : PacketID) (tokenAcquired : Bool)
  | clearFlowTokenHeld (packetID : PacketID)
  -- `completeTerminalOutgoingInflight`
  | putAckToken
  | advanceAcked
  -- a token goes back and the operation ends
  | putToken

/-- A packet is written, is over the peer's maximum packet size, could not be built, or
its write fails and ends the connection. -/
inductive WriteResult where
  | written
  | oversized
  | missing
  | failed
  deriving DecidableEq

/-- What the outside decides: the result of a write and which cursor calls succeed. -/
structure Outcome where
  write : WriteResult := .written
  advances : Position → Bool := fun _ => true

/-- The effect of one step; without a next step the operation is done. -/
structure Effect where
  downlink : Downlink
  live : Bool := true
  next : Option NextStep := none

namespace Downlink

variable (downlink : Downlink)

def putToken : Downlink := { downlink with bucket := downlink.bucket.putToken }

/-- One atomic step of a half done operation; `none` while it waits for a token. -/
def perform (outcome : Outcome) : NextStep → Option Effect
  | .getToken outgoing =>
    downlink.bucket.tryGetToken.map fun bucket =>
      { downlink := { downlink with bucket := bucket }, next := some (.put outgoing) }
  | .put outgoing =>
    -- an identifier that was taken meanwhile ends the connection
    let replaced := (downlink.inflight.get outgoing.entry.packetID).isSome
    some
      { downlink := { downlink with inflight := downlink.inflight.put outgoing.entry }
        next := some (if replaced then .putTokenAndClose else .write outgoing.entry.packetID) }
  | .putTokenAndClose => some { downlink := downlink.putToken, next := some .close }
  | .close => some { downlink := downlink, live := false }
  | .write packetID =>
    match outcome.write with
    | .written => some { downlink := downlink }
    | .oversized => some { downlink := downlink, next := some (.delete packetID) }
    | .missing => none
    | .failed => some { downlink := downlink, live := false }
  | .delete packetID =>
    match downlink.inflight.get packetID with
    | none => some { downlink := downlink }
    | some _ =>
      some
        { downlink := { downlink with inflight := downlink.inflight.erase packetID }
          next := some .putToken }
  | .tryGetToken packetID =>
    match downlink.bucket.tryGetToken with
    | none => some { downlink := downlink }
    | some bucket =>
      some
        { downlink := { downlink with bucket := bucket }
          next := some (.markFlowTokenHeld packetID) }
  | .markFlowTokenHeld packetID =>
    match (downlink.inflight.get packetID).filter fun entry => !entry.flowTokenHeld with
    | none => some { downlink := downlink, next := some .putToken }
    | some entry =>
      some
        { downlink :=
            { downlink with inflight := downlink.inflight.setFlowTokenHeld packetID true }
          next := some (.resend { entry with flowTokenHeld := true } true) }
  | .resend entry tokenAcquired =>
    match outcome.write with
    | .written => some { downlink := downlink }
    | .oversized =>
      -- only a PUBLISH is dropped; a PUBREL over the limit ends the connection
      if entry.state = .waitingPubComp then some { downlink := downlink, live := false }
      else some { downlink := downlink, next := some (.deleteResent entry.packetID tokenAcquired) }
    | .missing =>
      if entry.state = .waitingPubComp then none
      else some
        { downlink := downlink
          next := if tokenAcquired then some (.clearFlowTokenHeld entry.packetID) else none }
    | .failed => some { downlink := downlink, live := false }
  | .deleteResent packetID tokenAcquired =>
    match downlink.inflight.get packetID with
    | none => some { downlink := downlink, next := if tokenAcquired then some .putToken else none }
    | some _ =>
      some
        { downlink := { downlink with inflight := downlink.inflight.erase packetID }
          next := some .putToken }
  | .clearFlowTokenHeld packetID =>
    some
      { downlink := { downlink with inflight := downlink.inflight.setFlowTokenHeld packetID false }
        next := some .putToken }
  | .putAckToken => some { downlink := downlink.putToken, next := some .advanceAcked }
  | .advanceAcked =>
    some { downlink := downlink.advanceAckedOutgoingInflight outcome.advances }
  | .putToken => some { downlink := downlink.putToken }

end Downlink

structure HalfDone where
  thread : Thread
  next : NextStep

structure FlowControl where
  downlink : Downlink
  live : Bool := true
  operations : KeyedTable HalfDone.thread := .empty

inductive FlowLabel where
  | deliver (task : DeliveryTask) (packetID : PacketID) (now : Nat)
  | sendRetained (subscribe : Nat) (packetID : PacketID) (qos ts : Nat) (messageID : UUID)
      (packet : Publish)
  | retransmit
  | puback (packetID : PacketID)
  | pubrec (packetID : PacketID) (reasonCode : Nat) (written : Bool)
  | pubcomp (packetID : PacketID) (reasonCode : Nat)
  | proceed (thread : Thread) (outcome : Outcome)

namespace FlowControl

variable (s : FlowControl)

/-- A goroutine does one operation after the other. -/
def idle (thread : Thread) : Prop := s.operations.get thread = none

instance (thread : Thread) : Decidable (s.idle thread) :=
  inferInstanceAs (Decidable (_ = none))

def continueWith (thread : Thread) : Option NextStep → KeyedTable HalfDone.thread
  | none => s.operations.erase thread
  | some next => s.operations.put ⟨thread, next⟩

/-- `NextPacketID` skips zero and the identifiers in the table. -/
def send (thread : Thread) (outgoing : Outgoing) : Option FlowControl :=
  if s.idle thread ∧ outgoing.entry.packetID ≠ 0 ∧
      s.downlink.inflight.get outgoing.entry.packetID = none then
    some { s with operations := s.continueWith thread (some (.getToken outgoing)) }
  else none

/-- An entry without a token has to take one before it is sent again. -/
def retransmit : Option FlowControl :=
  if s.idle .runner then
    s.downlink.inflight.firstUnacked.map fun entry =>
      { s with
        operations := s.continueWith .runner (some
          (if entry.flowTokenHeld then .resend entry false else .tryGetToken entry.packetID)) }
  else none

/-- `completeTerminalOutgoingInflight` up to `MarkAcked`. -/
def acknowledge (packetID : PacketID) (qos : Nat) : Option FlowControl :=
  if s.idle .handler then
    match s.downlink.inflight.ackTarget packetID qos with
    | none => some s
    | some entry =>
      some { s with
        downlink := { s.downlink with inflight := s.downlink.inflight.setAcked packetID }
        operations := s.continueWith .handler (some
          (if entry.flowTokenHeld then .putAckToken else .advanceAcked)) }
  else none

/-- A PUBREC with a success code moves no token; a PUBREL that cannot be written ends the
connection. -/
def receivePubRec (packetID : PacketID) (reasonCode : Nat) (written : Bool) :
    Option FlowControl :=
  if mqtt5ReasonCodeIsError reasonCode then s.acknowledge packetID 2
  else if s.idle .handler then
    let handled := s.downlink.handlePubRec (fun _ => false) packetID reasonCode
    some { s with downlink := handled.1, live := !handled.2 || written }
  else none

def proceed (thread : Thread) (outcome : Outcome) : Option FlowControl :=
  match s.operations.get thread with
  | none => none
  | some half =>
    (s.downlink.perform outcome half.next).map fun effect =>
      { downlink := effect.downlink
        live := effect.live
        operations := s.continueWith thread effect.next }

end FlowControl

def flowControl : System FlowControl FlowLabel where
  step s label :=
    if s.live then
      match label with
      | .deliver task packetID now =>
        if deliveryQoS task.deliveryQoS = 0 then none
        else s.send .runner (.delivery task packetID now)
      | .sendRetained subscribe packetID qos ts messageID packet =>
        if qos = 1 ∨ qos = 2 then
          s.send (.retained subscribe) (.retained packetID qos ts messageID packet)
        else none
      | .retransmit => s.retransmit
      | .puback packetID => s.acknowledge packetID 1
      | .pubrec packetID reasonCode written => s.receivePubRec packetID reasonCode written
      | .pubcomp packetID _ => s.acknowledge packetID 2
      | .proceed thread outcome => s.proceed thread outcome
    else none

/-- A connection with Receive Maximum `capacity` that has restored the outgoing messages of
its session. They were collected from a table, so their identifiers differ. -/
def FlowControl.start (capacity : Nat) (environment : RestoreEnvironment) (queue : ClientQueue)
    (saved : KeyedTable UnfinishedMessage.packetID) : FlowControl :=
  let restoring :=
    restoreOutgoingInflightFromSession environment queue saved.entries (.new capacity)
  { downlink := { inflight := restoring.inflight, bucket := restoring.bucket, queue := queue }
    live := restoring.live }

end SkyTree.Client
