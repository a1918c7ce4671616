import SkyTree.Delivery.Store
import SkyTree.Foundation.KeyedTable
import SkyTree.Foundation.Transition
import SkyTree.Session.Unfinished

/-!
# Incoming QoS 2 exchanges

A QoS 2 PUBLISH waits in a table of the connection and, when the session outlives the
connection, as an unfinished message of the session. PUBREL routes it and removes
both. A reconnect fills the table from the session, with new message identifiers.
The table forgets entries after ten minutes without a sign of life.
-/

namespace SkyTree.Client

open Foundation Delivery Session Mqtt KeyedTable

/-- A retransmission differs from the first PUBLISH in the DUP flag only. -/
def content (publish : Publish) : Publish := { publish with duplicate := false }

/-- An accepted PUBLISH before its PUBREL; `serial` numbers the accepted ones. -/
structure IncomingMessage where
  publish : Publish
  messageID : UUID
  ackReasonCode : Nat
  serial : Nat

/-- An entry of the table; times are in nanoseconds. -/
structure Waiting where
  packetID : PacketID
  message : IncomingMessage
  lastSeen : Nat

abbrev QoS2ReceiveStore := KeyedTable Waiting.packetID

def defaultQoS2WaitingTTL : Nat := 600 * 1000000000

namespace QoS2ReceiveStore

def cleanupExpired (now : Nat) (store : QoS2ReceiveStore) : QoS2ReceiveStore :=
  store.filter fun waiting => decide (now ≤ waiting.lastSeen + defaultQoS2WaitingTTL)

/-- `Store`: a message already waiting under the identifier is kept. -/
def store (now : Nat) (store : QoS2ReceiveStore) (message : IncomingMessage) : QoS2ReceiveStore :=
  let cleaned := store.cleanupExpired now
  match cleaned.get message.publish.packetID with
  | some _ =>
    cleaned.modify message.publish.packetID (fun waiting => { waiting with lastSeen := now })
      fun _ => rfl
  | none => cleaned.put ⟨message.publish.packetID, message, now⟩

/-- `Read` does not look at the age of an entry. -/
def read (store : QoS2ReceiveStore) (packetID : PacketID) : Option IncomingMessage :=
  (store.get packetID).map Waiting.message

end QoS2ReceiveStore

def IncomingMessage.toUnfinished (message : IncomingMessage) (now : Nat) : UnfinishedMessage where
  messageID := message.messageID
  packetID := message.publish.packetID
  qos := message.publish.qos
  state := .waitingPubRel
  isOutgoing := false
  firstPubTime := now / 1000
  publishPacket := some message.publish
  ackReasonCode := message.ackReasonCode

/-- A saved message is rebuilt under a new message identifier. -/
def restoredIncoming (freshID : PacketID → UUID) (serials : PacketID → Nat)
    (unfinished : UnfinishedMessage) : Option IncomingMessage :=
  if unfinished.isOutgoing ∨ unfinished.state ≠ .waitingPubRel ∨ unfinished.qos ≠ 2 ∨
      unfinished.packetID = 0 then none
  else
    match unfinished.publishPacket with
    | none => none
    | some packet =>
      let publish :=
        if packet.packetID = 0 then { packet with packetID := unfinished.packetID } else packet
      if publish.qos = 2 then
        some
          { publish := publish
            messageID := freshID unfinished.packetID
            ackReasonCode := unfinished.ackReasonCode
            serial := serials unfinished.packetID }
      else none

def restoreIncomingQoS2FromSession (now : Nat) (freshID : PacketID → UUID)
    (serials : PacketID → Nat) (messages : List UnfinishedMessage) : QoS2ReceiveStore :=
  (messages.filterMap (restoredIncoming freshID serials)).foldl (QoS2ReceiveStore.store now) .empty

/-- The incoming side of one connection; `open_` ends with the first error. -/
structure IncomingConnection where
  ownerToken : OwnerToken
  sessionExpiryInterval : Nat
  receiveMaximum : Nat := 0
  qos2 : QoS2ReceiveStore
  open_ : Bool := true

inductive Verdict where
  | accepted
  | denied
  | closes

/-- `prepared` stands for topic alias, envelope and payload checks, `admitted` for plugin,
capabilities and rate. -/
structure PublishAnswers where
  prepared : Verdict := .accepted
  admitted : Verdict := .accepted
  noMatchingSubscribers : Bool := false
  messageID : UUID
  persisted : Bool := true

structure ClientPlan where
  clientID : ClientID
  deliveryQoS : Int
  subscriptionIDs : List Int := []
  noLocal : Bool := false
  retainAsPublished : Bool := false

/-- One call of `RoutePublish`: the routing plans, the timestamp and fresh task
identifiers, and which store calls succeed. -/
structure Routing where
  plans : List ClientPlan
  ts : Nat
  taskID : ClientID → UUID
  saved : Bool := true
  appends : ClientID → Bool := fun _ => true

structure PubrelOutcome where
  retained : Bool := true
  routing : Routing
  removed : Bool := true

inductive UplinkLabel where
  | wait (duration : Nat)
  | environment (deliveries : DeliveryStore)
  | connect (ownerToken : OwnerToken) (sessionExpiryInterval receiveMaximum : Nat)
      (freshID : PacketID → UUID)
  | disconnect (sessionExpiryInterval : Nat) (outgoing : List UnfinishedMessage)
  | drop
  | commitOutgoing (outgoing : List UnfinishedMessage)
  | removeOutgoing (messageID : UUID)
  | publish (packet : Publish) (answers : PublishAnswers)
  | pubrel (packetID : PacketID) (reasonCode : Nat) (outcome : PubrelOutcome)

/-- A client's incoming side with the session center and the delivery queues. `serials`
tells which accepted PUBLISH a saved message belongs to, `added` which tasks were queued,
`exchange` what was answered and not completed, `routes` what was routed. -/
structure Uplink where
  clock : Nat := 1
  sessions : Core
  deliveries : DeliveryStore
  connection : Option IncomingConnection := none
  serials : PacketID → Nat := fun _ => 0
  accepted : Nat := 0
  added : List (Nat × ClientID) := []
  exchange : PacketID → Option (Publish × Nat) := fun _ => none
  routes : List Publish := []

namespace Uplink

section Handlers

variable (clientID : ClientID) (s : Uplink) (connection : IncomingConnection)

def shouldPersistIncomingQoS2 : Bool :=
  clientID != "" && decide (0 < connection.sessionExpiryInterval)

def persistIncomingQoS2WaitingPubrel (message : IncomingMessage) (succeeds : Bool) : Option Core :=
  if shouldPersistIncomingQoS2 clientID connection then
    if succeeds then
      (s.sessions.upsertIncomingUnfinished s.clock
        { clientID := clientID
          ownerToken := connection.ownerToken
          packetID := message.publish.packetID
          unfinishedMessage := message.toUnfinished s.clock
          nowUnixNano := s.clock }).toOption
    else none
  else some s.sessions

def removeIncomingQoS2Unfinished (packetID : PacketID) (succeeds : Bool) : Option Core :=
  if shouldPersistIncomingQoS2 clientID connection = true ∧ packetID ≠ 0 then
    if succeeds then
      (s.sessions.removeIncomingUnfinished s.clock
        { clientID := clientID
          ownerToken := connection.ownerToken
          packetID := packetID
          nowUnixNano := s.clock }).toOption
    else none
  else some s.sessions

def fail : Uplink := { s with connection := some { connection with open_ := false } }

variable (packet : Publish)

def answer (reasonCode : Nat) : Uplink :=
  { s with
    exchange := Function.update s.exchange packet.packetID (some (content packet, reasonCode)) }

/-- `handleRepeatedPublish`: the reason code of the repeated PUBREC. -/
def repeatedPublish : Option Nat :=
  if packet.qos = 2 ∧ packet.packetID ≠ 0 then
    (connection.qos2.read packet.packetID).bind fun stored =>
      if mqtt5ReasonCodeIsError stored.ackReasonCode then none else some stored.ackReasonCode
  else none

def newIncoming (answers : PublishAnswers) : IncomingMessage where
  publish := packet
  messageID := answers.messageID
  ackReasonCode :=
    if answers.noMatchingSubscribers then pubrecNoMatchingSubscribers else reasonSuccess
  serial := s.accepted

def acceptPublish (message : IncomingMessage) (sessions : Core) : Uplink :=
  answer
    { s with
      sessions := sessions
      connection := some { connection with qos2 := connection.qos2.store s.clock message }
      serials :=
        if shouldPersistIncomingQoS2 clientID connection then
          Function.update s.serials message.publish.packetID message.serial
        else s.serials
      accepted := s.accepted + 1 }
    message.publish message.ackReasonCode

def storeQoS2Publish (packet : Publish) (answers : PublishAnswers) : Uplink :=
  let message := s.newIncoming packet answers
  match persistIncomingQoS2WaitingPubrel clientID s connection message answers.persisted with
  | none =>
    s.fail
      { connection with qos2 := (connection.qos2.store s.clock message).erase packet.packetID }
  | some sessions => acceptPublish clientID s connection message sessions

/-- Counting the waiting messages drops the old ones. -/
def counted : IncomingConnection :=
  { connection with qos2 := connection.qos2.cleanupExpired s.clock }

/-- The part of `handlePublish` for a PUBLISH that is not a repetition. QoS 0 and QoS 1
messages are routed elsewhere; a QoS 1 PUBLISH also counts the waiting messages. -/
def admitPublish (packet : Publish) (answers : PublishAnswers) : Uplink :=
  match answers.admitted with
  | .closes => s.fail connection
  | .denied => s
  | .accepted =>
    if packet.qos ≠ 1 ∧ packet.qos ≠ 2 then s
    else if 0 < connection.receiveMaximum ∧
        connection.receiveMaximum ≤ (s.counted connection).qos2.entries.length then
      s.fail (s.counted connection)
    else if packet.qos = 2 then
      storeQoS2Publish clientID s (s.counted connection) packet answers
    else { s with connection := some (s.counted connection) }

def handlePublish (packet : Publish) (answers : PublishAnswers) : Uplink :=
  match answers.prepared with
  | .closes => s.fail connection
  | .denied => s
  | .accepted =>
    match repeatedPublish connection packet with
    | some reasonCode => s.answer packet reasonCode
    | none => admitPublish clientID s connection packet answers

def appendClientTask (message : IncomingMessage) (routing : Routing) (s : Uplink)
    (plan : ClientPlan) : Uplink :=
  if plan.clientID = "" ∨ routing.appends plan.clientID = false then s
  else
    let result := (s.deliveries plan.clientID).appendTask
      { ts := routing.ts
        taskID := routing.taskID plan.clientID
        messageID := message.messageID
        deliveryQoS := plan.deliveryQoS
        subscriptionIDs := plan.subscriptionIDs
        noLocal := plan.noLocal
        retainAsPublished := plan.retainAsPublished }
    { s with
      deliveries := Function.update s.deliveries plan.clientID result.1
      added := if result.2 then (message.serial, plan.clientID) :: s.added else s.added }

/-- `routePublishClientMode`; the flag tells whether every call succeeded. -/
def routePublish (message : IncomingMessage) (routing : Routing) : Uplink × Bool :=
  if routing.plans = [] then (s, true)
  else if routing.saved then
    (routing.plans.foldl (appendClientTask message routing) s,
      routing.plans.all fun plan => plan.clientID == "" || routing.appends plan.clientID)
  else (s, false)

variable (packetID : PacketID)

def completePubRel (sessions : Core) : Uplink :=
  { s with
    sessions := sessions
    connection := some { connection with qos2 := connection.qos2.erase packetID }
    exchange := Function.update s.exchange packetID none }

/-- The end of `handlePubRel`: first the saved message, then the entry. -/
def finishPubRel (removed : Bool) : Uplink :=
  match removeIncomingQoS2Unfinished clientID s connection packetID removed with
  | none => s.fail connection
  | some sessions => s.completePubRel connection packetID sessions

def handlePubRel (reasonCode : Nat) (outcome : PubrelOutcome) : Uplink :=
  match connection.qos2.read packetID with
  | none => { s with exchange := Function.update s.exchange packetID none }
  | some message =>
    if mqtt5ReasonCodeIsError reasonCode ∨ mqtt5ReasonCodeIsError message.ackReasonCode then
      finishPubRel clientID s connection packetID outcome.removed
    else if message.publish.retain = true ∧ outcome.retained = false then s.fail connection
    else if message.ackReasonCode = pubrecNoMatchingSubscribers then
      finishPubRel clientID s connection packetID outcome.removed
    else
      let routed := s.routePublish message outcome.routing
      if routed.2 then
        finishPubRel clientID { routed.1 with routes := message.publish :: routed.1.routes }
          connection packetID outcome.removed
      else routed.1.fail connection

end Handlers

/-- A connect without clean start of a client that is not connected. -/
def connect (clientID : ClientID) (s : Uplink) (ownerToken : OwnerToken)
    (sessionExpiryInterval receiveMaximum : Nat) (freshID : PacketID → UUID) : Option Uplink :=
  match s.sessions.openSessionForConnect s.clock
      { clientID := clientID
        willMessage := none
        sessionExpiryInterval := sessionExpiryInterval
        nowUnixNano := s.clock } with
  | .error _ => none
  | .ok (opened, response) =>
    some { s with
      sessions := opened.setOwner clientID
        { clientID := clientID, nodeID := 1, ownerToken := ownerToken, online := true }
      connection := some
        { ownerToken := ownerToken
          sessionExpiryInterval := sessionExpiryInterval
          receiveMaximum := receiveMaximum
          qos2 := restoreIncomingQoS2FromSession s.clock freshID s.serials
            response.session.unfinishedMessages }
      exchange := if response.oldSession.isSome then s.exchange else fun _ => none }

/-- The close of a connection, with its offline save. A DISCONNECT may change the expiry
interval, but not from zero; a save with interval zero ends the session. -/
def disconnect (clientID : ClientID) (s : Uplink) (connection : IncomingConnection)
    (sessionExpiryInterval : Nat) (outgoing : List UnfinishedMessage) : Option Uplink :=
  if (connection.sessionExpiryInterval = 0 → sessionExpiryInterval = 0) ∧
      ∀ message ∈ outgoing, message.isOutgoing = true then
    match s.sessions.saveOfflineState s.clock
        { clientID := clientID
          ownerToken := connection.ownerToken
          unfinishedMessages := outgoing
          outgoingReplayCursor := none
          clearWill := true
          sessionExpiryInterval := sessionExpiryInterval
          nowUnixNano := s.clock } with
    | .error _ => none
    | .ok saved =>
      some { s with
        sessions := saved
        connection := none
        exchange := if sessionExpiryInterval = 0 then fun _ => none else s.exchange }
  else none

def commitOutgoing (clientID : ClientID) (s : Uplink) (connection : IncomingConnection)
    (outgoing : List UnfinishedMessage) : Option Uplink :=
  if ∀ message ∈ outgoing, message.isOutgoing = true then
    (s.sessions.commitOutgoingProgress s.clock
      { clientID := clientID
        ownerToken := connection.ownerToken
        unfinishedMessages := outgoing
        outgoingReplayCursor := none
        nowUnixNano := s.clock }).toOption.map fun sessions => { s with sessions := sessions }
  else none

def removeOutgoing (clientID : ClientID) (s : Uplink) (messageID : UUID) : Option Uplink :=
  (s.sessions.removeOutgoingUnfinished s.clock
    { clientID := clientID
      messageID := messageID
      nowUnixNano := s.clock }).toOption.map fun sessions => { s with sessions := sessions }

end Uplink

/-- `drop` is the loss of a connection without a save: the broker stopped or another
connection took the session over. The decoder lets no PUBLISH above QoS 0 through without
a packet identifier. -/
def uplink (clientID : ClientID) : System Uplink UplinkLabel where
  step s label :=
    match label, s.connection with
    | .wait duration, _ => some { s with clock := s.clock + duration }
    | .environment deliveries, _ => some { s with deliveries := deliveries }
    | .connect ownerToken sessionExpiryInterval receiveMaximum freshID, none =>
      s.connect clientID ownerToken sessionExpiryInterval receiveMaximum freshID
    | .disconnect sessionExpiryInterval outgoing, some connection =>
      s.disconnect clientID connection sessionExpiryInterval outgoing
    | .drop, some _ => some { s with connection := none }
    | .commitOutgoing outgoing, some connection =>
      s.commitOutgoing clientID connection outgoing
    | .removeOutgoing messageID, some _ => s.removeOutgoing clientID messageID
    | .publish packet answers, some connection =>
      if connection.open_ = true ∧ (packet.qos ≠ 0 → packet.packetID ≠ 0) then
        some (s.handlePublish clientID connection packet answers)
      else none
    | .pubrel packetID reasonCode outcome, some connection =>
      if connection.open_ = true ∧ (outcome.routing.plans.map ClientPlan.clientID).Nodup then
        some (s.handlePubRel clientID connection packetID reasonCode outcome)
      else none
    | _, _ => none

def Uplink.initial (sessions : Core) (deliveries : DeliveryStore) : Uplink where
  sessions := sessions
  deliveries := deliveries

namespace QoS2ReceiveStore

def Within (after before : QoS2ReceiveStore) : Prop :=
  ∀ waiting ∈ after, ∃ old ∈ before,
    old.packetID = waiting.packetID ∧ old.message = waiting.message

variable {store before : QoS2ReceiveStore} {now : Nat} {msg : IncomingMessage}

theorem Within.refl (store : QoS2ReceiveStore) : store.Within store :=
  fun wait hs => ⟨wait, hs, rfl, rfl⟩

theorem within_cleanupExpired : (store.cleanupExpired now).Within store :=
  fun wait hs => ⟨wait, (mem_filter.mp hs).1, rfl, rfl⟩

theorem mem_store {wait : Waiting} (hs : wait ∈ store.store now msg) :
    (∃ old ∈ store, old.packetID = wait.packetID ∧ old.message = wait.message) ∨
      wait = ⟨msg.publish.packetID, msg, now⟩ := by
  unfold QoS2ReceiveStore.store at hs
  dsimp only at hs
  split at hs
  · rcases mem_modify.mp hs with ⟨hk, -⟩ | ⟨old, hk, -, rfl⟩
    · exact .inl (within_cleanupExpired wait hk)
    · obtain ⟨before, hf, idEq, msgEq⟩ := within_cleanupExpired old hk
      exact .inl ⟨before, hf, idEq, msgEq⟩
  · rcases mem_put.mp hs with ⟨hk, -⟩ | rfl
    · exact .inl (within_cleanupExpired wait hk)
    · exact .inr rfl

theorem within_store_erase : Within ((store.store now msg).erase msg.publish.packetID) store := by
  intro wait hs
  obtain ⟨hm, hne⟩ := mem_erase.mp hs
  rcases mem_store hm with old | rfl
  · exact old
  · exact absurd rfl hne

theorem mem_foldl_store {msgs : List IncomingMessage} {wait : Waiting}
    (hs : wait ∈ msgs.foldl (QoS2ReceiveStore.store now) store) :
    (∃ old ∈ store, old.packetID = wait.packetID ∧ old.message = wait.message) ∨ ∃ msg ∈ msgs,
        msg.publish.packetID = wait.packetID ∧ msg = wait.message := by
  induction msgs generalizing store with
  | nil => exact .inl ⟨wait, hs, rfl, rfl⟩
  | cons first rest ih =>
    rcases ih hs with ⟨old, hk, idEq, msgEq⟩ | ⟨msg, hm, he⟩
    · rcases mem_store hk with ⟨before, hf, befID, befMsg⟩ | rfl
      · exact .inl ⟨before, hf, befID.trans idEq, befMsg.trans msgEq⟩
      · exact .inr ⟨first, List.mem_cons_self, idEq, msgEq⟩
    · exact .inr ⟨msg, List.mem_cons_of_mem _ hm, he⟩

end QoS2ReceiveStore

namespace Uplink

structure SavedForm (message : UnfinishedMessage) : Prop where
  packetID : message.packetID ≠ 0
  qos : message.qos = 2
  state : message.state = .waitingPubRel
  packet : ∃ publish, message.publishPacket = some publish ∧
    publish.packetID = message.packetID ∧ publish.qos = 2

structure Attached (clientID : ClientID) (s : Uplink) : Prop where
  live : ∀ connection, s.connection = some connection → s.sessions.Live clientID
  owned : ∀ connection, s.connection = some connection →
    s.sessions.ownerTokenMatches clientID connection.ownerToken = true
  saved : ∀ message, s.sessions.Incoming clientID message → SavedForm message

section Sessions

variable {clientID : ClientID} {s : Uplink} {connection : IncomingConnection}

def savedMessage (s : Uplink) (message : IncomingMessage) : UnfinishedMessage :=
  { message.toUnfinished s.clock with qos := 2 }

theorem toOption_eq_some {res : Except String Core} {core : Core}
    (hd : res.toOption = some core) : res = .ok core := by
  cases res with
  | error => cases hd
  | ok value =>
    cases hd
    rfl

theorem upsert_packetID_ne_zero {core next : Core} {clock : Int}
    {req : UpsertIncomingUnfinishedRequest}
    (hd : core.upsertIncomingUnfinished clock req = .ok next) : req.packetID ≠ 0 := by
  intro hz
  unfold Core.upsertIncomingUnfinished at hd
  split at hd
  · cases hd
  · simp at hd

theorem persist_spec (ha : s.Attached clientID) (hc : s.connection = some connection)
    {table : QoS2ReceiveStore} {msg : IncomingMessage} {succeeds : Bool} {sessions : Core}
    (hd : persistIncomingQoS2WaitingPubrel clientID s { connection with qos2 := table } msg
      succeeds = some sessions) :
    Core.KeepsOwner s.sessions sessions clientID ∧
      if shouldPersistIncomingQoS2 clientID connection then
        msg.publish.packetID ≠ 0 ∧ ∀ o, sessions.Incoming clientID o ↔
          (s.sessions.Incoming clientID o ∧ o.packetID ≠ msg.publish.packetID) ∨ o =
            s.savedMessage msg
      else sessions = s.sessions := by
  have hl := ha.live connection hc
  unfold persistIncomingQoS2WaitingPubrel at hd
  cases hp : shouldPersistIncomingQoS2 clientID connection with
  | false =>
    rw [if_neg (by simpa [shouldPersistIncomingQoS2] using hp)] at hd
    cases hd
    exact ⟨.of_eq hl, rfl⟩
  | true =>
    rw [if_pos (by simpa [shouldPersistIncomingQoS2] using hp)] at hd
    obtain ⟨-, hd⟩ := Option.ite_none_right_eq_some.mp hd
    have hs := toOption_eq_some hd
    refine ⟨Core.upsertIncomingUnfinished_keepsOwner _ _ hl hs,
      upsert_packetID_ne_zero hs, fun o => ?_⟩
    exact Core.upsertIncomingUnfinished_incoming hl (ha.owned connection hc) hs

theorem remove_spec (ha : s.Attached clientID) (hc : s.connection = some connection)
    {pid : PacketID} {succeeds : Bool} {sessions : Core}
    (hd : removeIncomingQoS2Unfinished clientID s connection pid succeeds = some sessions) :
    Core.KeepsOwner s.sessions sessions clientID ∧
      ∀ o, sessions.Incoming clientID o ↔ s.sessions.Incoming clientID o ∧
        (shouldPersistIncomingQoS2 clientID connection = true → o.packetID ≠ pid) := by
  have hl := ha.live connection hc
  unfold removeIncomingQoS2Unfinished at hd
  split at hd
  · next active =>
      obtain ⟨-, hd⟩ := Option.ite_none_right_eq_some.mp hd
      have hr := toOption_eq_some hd
      refine ⟨Core.removeIncomingUnfinished_keepsOwner _ _ hl hr, fun o => ?_⟩
      rw [Core.removeIncomingUnfinished_incoming hl (ha.owned connection hc) hr]
      simp [active.1]
  · next inactive =>
      cases hd
      refine ⟨.of_eq hl, fun o => ⟨fun hi => ⟨hi, fun hp he => ?_⟩, And.left⟩⟩
      exact inactive ⟨hp, he ▸ (ha.saved o hi).packetID⟩

end Sessions

end Uplink

end SkyTree.Client
