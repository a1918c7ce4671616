import SkyTree.Client.Acknowledge
import SkyTree.Client.Restore
import SkyTree.Foundation.Transition

/-!
# The outbound side of a session

One session over any number of connections: the delivery runner of the current
connection, the acknowledgements of the peer, retained sends, and the progress
saved in the session. A write of the runner is split from the registration that
precedes it, because acknowledgements are handled by another goroutine.

The history and the exchange flags are not stored by the broker; they record what
was sent and received, so that properties of whole runs can be stated.
-/

namespace SkyTree.Client

open Foundation Delivery Session Mqtt

/-- What happened to delivery tasks: a PUBLISH, a successful PUBREC, a terminal
acknowledgement. -/
inductive Event where
  | published (position : Position) (packetID : PacketID) (qos : Nat)
  | received (position : Position)
  | acked (position : Position)
  deriving DecidableEq

inductive Pending where
  | delivery (task : DeliveryTask) (packetID : PacketID)
  | retransmission (entry : InflightEntry) (tokenAcquired : Bool)
  deriving DecidableEq

def Pending.packetID : Pending → PacketID
  | .delivery _ packetID => packetID
  | .retransmission entry _ => entry.packetID

/-- The in-memory cursor, the rest of the batch that was read, and the open write. -/
structure Runner where
  last : Position
  batch : List DeliveryTask := []
  pending : Option Pending := none

structure SavedProgress where
  unfinishedMessages : List UnfinishedMessage := []
  replay : Option OutgoingReplayCursor := none

/-- For the entry registered under a packet identifier: a successful PUBREC arrived,
a PUBREL was sent. -/
structure Exchange where
  pubrecReceived : PacketID → Bool := fun _ => false
  pubrelSent : PacketID → Bool := fun _ => false

namespace Exchange

variable (exchange : Exchange) (packetID : PacketID)

def reset : Exchange where
  pubrecReceived := Function.update exchange.pubrecReceived packetID false
  pubrelSent := Function.update exchange.pubrelSent packetID false

def receive : Exchange :=
  { exchange with pubrecReceived := Function.update exchange.pubrecReceived packetID true }

def release : Exchange :=
  { exchange with pubrelSent := Function.update exchange.pubrelSent packetID true }

end Exchange

/-- `acksSinceCommit` counts the entries finished since the progress was last committed. -/
structure Outbound where
  downlink : Downlink
  online : Bool := false
  live : Bool := false
  replay : Option OutgoingReplayCursor := none
  runner : Option Runner := none
  saved : SavedProgress := {}
  history : List Event := []
  exchange : Exchange := {}
  savedExchange : Exchange := {}
  acksSinceCommit : Nat := 0

/-- Why a task is finished without an acknowledgement. -/
inductive DirectReason where
  | missingPayload
  | noLocal
  | expired
  | invalidFormat
  | qos0
  deriving DecidableEq

inductive RunnerLabel where
  | start
  | read
  | abandon (dies : Bool)
  | advance (reason : DirectReason) (advances : Bool)
  | register (packetID : PacketID) (now : Nat)
  | written
  | oversized (advances : Bool)
  | failed (dies : Bool)
  | retransmit
  | retransmitted
  | retransmitOversized
  | retransmitFailed (dies : Bool)

inductive PeerLabel where
  | puback (packetID : PacketID) (advances : Position → Bool)
  | pubrec (packetID : PacketID) (reasonCode : Nat) (advances : Position → Bool) (written : Bool)
  | pubcomp (packetID : PacketID) (reasonCode : Nat) (advances : Position → Bool)

inductive SessionLabel where
  | connect (environment : RestoreEnvironment) (capacity : Nat)
  | disconnect (save : Option Nat)
  | commit (now : Nat)
  | removeUnfinished (messageID : UUID)

inductive OutboundLabel where
  | append (task : DeliveryTask)
  | sendRetained (packetID : PacketID) (qos : Nat) (ts : Nat) (messageID : UUID)
      (packet : Publish) (written : Bool)
  | runner (label : RunnerLabel)
  | peer (label : PeerLabel)
  | session (label : SessionLabel)

def deliveryQoS (taskQoS : Int) : Nat := if taskQoS ≥ 2 then 2 else if taskQoS ≤ 0 then 0 else 1

/-- `now` is in microseconds. -/
def newDeliveryInflightEntry (task : DeliveryTask) (packetID : PacketID) (now : Nat) :
    InflightEntry where
  packetID := packetID
  qos := deliveryQoS task.deliveryQoS
  position := task.position
  generation := task.generation
  messageID := task.messageID
  shareGroup := task.shareGroup
  sharedTaskID := task.sharedTaskID
  firstPubTime := now
  flowTokenHeld := true
  state := if deliveryQoS task.deliveryQoS = 2 then .waitingPubRec else .waitingPubAck

def newRetainedInflightEntry (packetID : PacketID) (qos ts : Nat) (messageID : UUID)
    (packet : Publish) : InflightEntry where
  packetID := packetID
  qos := qos
  position := toLex (ts, messageID)
  messageID := messageID
  retained := true
  publishPacket := some packet
  firstPubTime := ts / 1000
  flowTokenHeld := true
  state := if qos = 2 then .waitingPubRec else .waitingPubAck

namespace Downlink

variable (downlink : Downlink)

/-- `NextPacketID` skips identifiers in the table; the send waits for a token. -/
def registerEntry (entry : InflightEntry) : Option Downlink :=
  if entry.packetID ≠ 0 ∧ downlink.inflight.get entry.packetID = none then
    downlink.bucket.tryGetToken.map fun bucket =>
      { downlink with bucket := bucket, inflight := downlink.inflight.put entry }
  else none

/-- `releaseDeliveryInflight`: the token goes back with the entry. -/
def releaseEntry (packetID : PacketID) : Downlink :=
  match downlink.inflight.get packetID with
  | none => downlink
  | some _ =>
    { downlink with
      inflight := downlink.inflight.erase packetID
      bucket := downlink.bucket.putToken }

def advanceTask (task : DeliveryTask) (advances : Bool) : Downlink :=
  if advances then
    { downlink with
      queue := (downlink.queue.advanceCursor task.position).1
      processed :=
        completeSharedDeliveryTask downlink.processed task.shareGroup task.sharedTaskID }
  else downlink

variable (entry : InflightEntry)

/-- `acquireRetransmitFlowToken`: the entry to send and whether a token was taken. -/
def acquireRetransmitToken :
    Option (Downlink × InflightEntry × Bool) :=
  if entry.flowTokenHeld then some (downlink, entry, false)
  else downlink.bucket.tryGetToken.map fun bucket =>
    ({ downlink with
        bucket := bucket
        inflight := downlink.inflight.setFlowTokenHeld entry.packetID true },
      { entry with flowTokenHeld := true }, true)

def retransmittable : Bool :=
  entry.state == .waitingPubComp || entry.retained && entry.publishPacket.isSome ||
    (findDeliveryTaskByMessageID downlink.queue entry.messageID).isSome

/-- `handleOutgoingRetransmitError` for a packet over the peer's limit. -/
def discardRetransmission (tokenAcquired : Bool) :
    Downlink :=
  match downlink.inflight.get entry.packetID with
  | some _ =>
    { downlink with
      inflight := downlink.inflight.erase entry.packetID
      bucket := downlink.bucket.putToken }
  | none =>
    if tokenAcquired then { downlink with bucket := downlink.bucket.putToken } else downlink

/-- `handleOutgoingRetransmitError` otherwise. -/
def undoRetransmission (tokenAcquired : Bool) :
    Downlink :=
  if tokenAcquired then
    { downlink with
      inflight := downlink.inflight.setFlowTokenHeld entry.packetID false
      bucket := downlink.bucket.putToken }
  else downlink

end Downlink

def InflightEntry.event (entry : InflightEntry) (make : Position → Event) : List Event :=
  if entry.retained then [] else [make entry.position]

def InflightEntry.publishedEvent (entry : InflightEntry) : List Event :=
  entry.event fun position => .published position entry.packetID entry.qos

def Transmission.events : Transmission → List Event
  | .publish entry => entry.publishedEvent
  | .pubrel _ => []

def Transmission.record (exchange : Exchange) : Transmission → Exchange
  | .publish _ => exchange
  | .pubrel entry => exchange.release entry.packetID

namespace Outbound

def startRunner (s : Outbound) : Option Outbound :=
  if s.online = true ∧ s.runner.isNone = true then
    some { s with
      runner := some
        { last := alignDeliveryCursorBeforeRunner s.replay s.downlink.inflight
            (loadClientDeliveryCursor s.downlink.queue s.replay) } }
  else none

/-- Finish a task without an acknowledgement; a failing store call ends the batch. -/
def advanceHead (s : Outbound) (runner : Runner) (task : DeliveryTask) (rest : List DeliveryTask)
    (advances : Bool) : Outbound :=
  { s with
    downlink := s.downlink.advanceTask task advances
    runner := some
      { last := task.position, batch := if advances then rest else [], pending := runner.pending } }

def allowsDirect (task : DeliveryTask) : DirectReason → Bool
  | .noLocal => task.noLocal
  | .qos0 => deliveryQoS task.deliveryQoS == 0
  | _ => true

variable (s : Outbound)

def idleStep (runner : Runner) : RunnerLabel → Option Outbound
  | .read =>
    if runner.batch = [] then
      some { s with
        runner := some { runner with batch := s.downlink.queue.readTasks runner.last 200 } }
    else none
  | .abandon dies =>
    some { s with runner := some { runner with batch := [] }, live := s.live && !dies }
  | .advance reason advances =>
    match runner.batch with
    | [] => none
    | task :: rest =>
      if 0 < s.downlink.bucket.tokens ∧ allowsDirect task reason = true then
        some (s.advanceHead runner task rest advances)
      else none
  | .register packetID now =>
    match runner.batch with
    | [] => none
    | task :: rest =>
      if deliveryQoS task.deliveryQoS = 0 then none
      else (s.downlink.registerEntry (newDeliveryInflightEntry task packetID now)).map
        fun downlink =>
          { s with
            downlink := downlink
            runner := some
              { runner with batch := rest, pending := some (.delivery task packetID) }
            exchange := s.exchange.reset packetID }
  | .retransmit =>
    match s.downlink.inflight.firstUnacked with
    | none => none
    | some entry =>
      (s.downlink.acquireRetransmitToken entry).map fun (downlink, entry, tokenAcquired) =>
        { s with
          downlink := downlink
          runner := some
            { runner with pending := some (.retransmission entry tokenAcquired) } }
  | _ => none

def deliveryStep (runner : Runner) (task : DeliveryTask) (packetID : PacketID) :
    RunnerLabel → Option Outbound
  | .written =>
    some { s with
      runner := some { runner with last := task.position, pending := none }
      history :=
        .published task.position packetID (deliveryQoS task.deliveryQoS) :: s.history }
  | .oversized advances =>
    some (advanceHead { s with downlink := s.downlink.releaseEntry packetID }
      { runner with pending := none } task runner.batch advances)
  | .failed dies =>
    some { s with
      downlink := s.downlink.releaseEntry packetID
      runner := some { runner with batch := [], pending := none }
      live := s.live && !dies }
  | _ => none

/-- The entry a retransmission was started for is still the one under its identifier. -/
def sameExchange (entry : InflightEntry) : Bool :=
  match s.downlink.inflight.get entry.packetID with
  | none => false
  | some current => current.messageID == entry.messageID

def retransmissionStep (runner : Runner) (entry : InflightEntry)
    (tokenAcquired : Bool) : RunnerLabel → Option Outbound
  | .retransmitted =>
    if s.downlink.retransmittable entry then
      if entry.state = .waitingPubComp then
        some { s with
          runner := some { runner with pending := none }
          exchange :=
            if s.sameExchange entry then s.exchange.release entry.packetID else s.exchange }
      else
        some { s with
          runner := some { runner with pending := none }
          history := entry.publishedEvent ++ s.history }
    else none
  | .retransmitOversized =>
    if entry.state = .waitingPubComp then none
    else some { s with
      downlink := s.downlink.discardRetransmission entry tokenAcquired
      runner := some { runner with pending := none } }
  | .retransmitFailed dies =>
    some { s with
      downlink := s.downlink.undoRetransmission entry tokenAcquired
      runner := some { runner with pending := none }
      live := s.live && !dies && decide (entry.state ≠ .waitingPubComp) }
  | _ => none

def runnerStep (label : RunnerLabel) : Option Outbound :=
  match s.runner with
  | none => if label matches .start then s.startRunner else none
  | some runner =>
    match runner.pending with
    | none => s.idleStep runner label
    | some (.delivery task packetID) => s.deliveryStep runner task packetID label
    | some (.retransmission entry tokenAcquired) =>
      s.retransmissionStep runner entry tokenAcquired label

def ackEvents (packetID : PacketID) (qos : Nat) : List Event :=
  match s.downlink.inflight.ackTarget packetID qos with
  | none => []
  | some entry => entry.event .acked

/-- `recordOutgoingTerminalAcks`: the entries a terminal acknowledgement finishes. -/
def terminalAcks (packetID : PacketID) (qos : Nat) : Nat :=
  match s.downlink.inflight.ackTarget packetID qos with
  | none => 0
  | some _ => (s.downlink.inflight.setAcked packetID).popAckedInOrder.1.length

def complete (advances : Position → Bool) (packetID : PacketID) (qos : Nat) :
    Outbound :=
  { s with
    downlink := s.downlink.completeTerminalOutgoingInflight advances packetID qos
    history := s.ackEvents packetID qos ++ s.history
    acksSinceCommit := s.acksSinceCommit + s.terminalAcks packetID qos }

def pubrecEntry (packetID : PacketID) : Option InflightEntry :=
  (s.downlink.inflight.get packetID).filter fun entry => entry.qos == 2

/-- A PUBREC with a success code; a PUBREL that cannot be written ends the connection. -/
def receivePubRec (packetID : PacketID) (reasonCode : Nat)
    (advances : Position → Bool) (written : Bool) : Outbound :=
  let handled := s.downlink.handlePubRec advances packetID reasonCode
  match s.pubrecEntry packetID with
  | none => { s with downlink := handled.1 }
  | some entry =>
    let received := s.exchange.receive packetID
    { s with
      downlink := handled.1
      history := entry.event .received ++ s.history
      exchange := if handled.2 && written then received.release packetID else received
      live := s.live && (!handled.2 || written) }

def peerStep (label : PeerLabel) : Option Outbound :=
  if s.online = true ∧ s.live = true then
    match label with
    | .puback packetID advances =>
      some { s with
        downlink := s.downlink.handlePubAck advances packetID
        history := s.ackEvents packetID 1 ++ s.history
        acksSinceCommit := s.acksSinceCommit + s.terminalAcks packetID 1 }
    | .pubrec packetID reasonCode advances written =>
      if mqtt5ReasonCodeIsError reasonCode then
        some { s with
          downlink := (s.downlink.handlePubRec advances packetID reasonCode).1
          history := s.ackEvents packetID 2 ++ s.history
          acksSinceCommit := s.acksSinceCommit + s.terminalAcks packetID 2 }
      else some (s.receivePubRec packetID reasonCode advances written)
    | .pubcomp packetID _ advances =>
      some { s with
        downlink := s.downlink.handlePubComp advances packetID
        history := s.ackEvents packetID 2 ++ s.history
        acksSinceCommit := s.acksSinceCommit + s.terminalAcks packetID 2 }
  else none

def collect (now : Nat) : SavedProgress where
  unfinishedMessages := collectOutgoingUnfinishedMessages now s.downlink.inflight
  replay := collectOutgoingReplayCursor s.downlink.inflight

def restoring (environment : RestoreEnvironment) (capacity : Nat) : Restoring :=
  restoreOutgoingInflightFromSession environment s.downlink.queue s.saved.unfinishedMessages
    (.new capacity)

/-- A connect without clean start, after a disconnect or over an online connection. -/
def connect (environment : RestoreEnvironment) (capacity : Nat) : Outbound :=
  let restoring := s.restoring environment capacity
  { s with
    downlink := { s.downlink with inflight := restoring.inflight, bucket := restoring.bucket }
    online := true
    live := restoring.live
    replay := restoreQoS1ReplayCursorFromSession s.downlink.queue s.saved.replay
    runner := none
    history := (restoring.sent.flatMap Transmission.events).reverse ++ s.history
    exchange := restoring.sent.foldl Transmission.record s.savedExchange
    acksSinceCommit := 0 }

def sessionStep : SessionLabel → Option Outbound
  | .connect environment capacity =>
    if 0 < capacity then some (s.connect environment capacity) else none
  | .disconnect save =>
    if s.online then
      some { s with
        downlink := { s.downlink with inflight := .empty }
        online := false
        live := false
        runner := none
        saved := match save with
          | some now => s.collect now
          | none => s.saved
        savedExchange := if save.isSome then s.exchange else s.savedExchange }
    else none
  | .commit now =>
    if s.online = true ∧ 0 < s.acksSinceCommit then
      some { s with saved := s.collect now, savedExchange := s.exchange, acksSinceCommit := 0 }
    else none
  | .removeUnfinished messageID =>
    some { s with
      saved := { s.saved with
        unfinishedMessages := s.saved.unfinishedMessages.filter fun message =>
          !(message.isOutgoing && message.messageID == messageID) } }

end Outbound

/-- Task identifiers are fresh, so an append never hits the key of a queued task. -/
def outbound : System Outbound OutboundLabel where
  step s label :=
    match label with
    | .append task =>
      if ∀ queued ∈ s.downlink.queue.tasks.entries, queued.position ≠ task.position then
        some { s with
          downlink := { s.downlink with queue := (s.downlink.queue.appendTask task).1 } }
      else none
    | .sendRetained packetID qos ts messageID packet written =>
      if s.online = true ∧ (qos = 1 ∨ qos = 2) then
        (s.downlink.registerEntry (newRetainedInflightEntry packetID qos ts messageID packet)).map
          fun downlink =>
            if written then
              { s with downlink := downlink, exchange := s.exchange.reset packetID }
            else { s with downlink := downlink.releaseEntry packetID }
      else none
    | .runner label => s.runnerStep label
    | .peer label => s.peerStep label
    | .session label => s.sessionStep label

def Outbound.initial (queue : ClientQueue) : Outbound where
  downlink := { inflight := .empty, bucket := .new 0, queue := queue }

end SkyTree.Client
