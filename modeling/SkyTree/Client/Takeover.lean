import SkyTree.Client.Close
import SkyTree.Foundation.Transition

/-!
# Takeover of a client identifier

Connection `A` holds the identifier and closes; connection `B` acquires it. Both
work through separate store calls, so every call is one step of the system, and
the close path, the expiry timer and the delayed rollbacks of `A` interleave
freely with the connect and the later operations of `B`.
-/

namespace SkyTree.Client

open Foundation Session Subscription Delivery Core

/-- Two connections of one client; their owner tokens are fresh identifiers. -/
structure Parties where
  clientID : ClientID
  a : Connection
  b : Connection
  cleanStart : Bool
  named : clientID ≠ ""
  sameA : a.id = clientID
  sameB : b.id = clientID
  tokened : a.ownerToken ≠ ""
  fresh : a.ownerToken ≠ b.ownerToken

/-- Where `A` stands in its close path; the last three phases precede one delete each. -/
inductive ClosePhase where
  | running
  | closing
  | saved
  | waiting
  | expiring
  | unsubscribed
  | dequeued
  | done
  deriving DecidableEq, Repr

/-- A cleanup has been decided and is not finished. -/
def ClosePhase.cleaning : ClosePhase → Bool
  | .expiring | .unsubscribed | .dequeued => true
  | _ => false

/-- Where `B` stands in its connect and afterwards. -/
inductive ConnectPhase where
  | idle
  | opened
  | replaced
  | owner
  | fenced
  | unsubscribed
  | cleaned
  | connected
  | offline
  | ended
  deriving DecidableEq, Repr

/-- `B` has opened its session and the session has not ended. -/
def ConnectPhase.holding : ConnectPhase → Bool
  | .idle | .ended => false
  | _ => true

/-- `B` has opened its session and is not yet its owner. -/
def ConnectPhase.acquiring : ConnectPhase → Bool
  | .opened | .replaced => true
  | _ => false

inductive Party where
  | a
  | b
  deriving DecidableEq, Repr

structure TakeoverState where
  broker : Broker
  aPhase : ClosePhase
  bPhase : ConnectPhase
  registered : Option Party
  scheduledRollbacks : List String
  activeRollbacks : List String

inductive Operation where
  | subscribe (topics : List SubOption)
  | unsubscribe (topics : List String)
  | upsertIncoming (packetID : PacketID) (unfinished : UnfinishedMessage) (now : Int)
  | removeIncoming (packetID : PacketID) (now : Int)
  | removeOutgoing (messageID : UUID) (now : Int)
  | commitOutgoing (unfinished : List UnfinishedMessage) (cursor : Option OutgoingReplayCursor)
      (now : Int)
  | advanceCursor (position : Position)

inductive CloseLabel where
  | close
  | save (snapshot : OfflineSnapshot) (succeeds : Bool)
  | schedule
  | ownerRead (succeeds : Bool)
  | deleteSubscriptions (succeeds : Bool)
  | deleteDeliveryState (succeeds : Bool)
  | deleteSession (succeeds : Bool)
  | rollbackCheck (shareGroup : String)
  | rollbackDelete (shareGroup : String) (rolledBackAny : Bool)
  | unregister

inductive ConnectLabel where
  | openSession (will : Option WillMessage) (now : Int)
  | replace (will : Option WillMessage) (now : Int)
  | takeOver (nodeID : Nat)
  | setOwnerToken
  | deleteSubscriptions
  | deleteDeliveryState
  | register
  | operation (operation : Operation)
  | save (interval : Nat) (snapshot : OfflineSnapshot)
  | unregister
  | endSession

inductive TakeoverLabel where
  | a (label : CloseLabel)
  | b (label : ConnectLabel)
  | append (task : DeliveryTask)

namespace Broker

def withSessions (broker : Broker) (result : Except String Core) : Broker :=
  match result with
  | .error _ => broker
  | .ok sessions => { broker with sessions := sessions }

def apply (broker : Broker) (clientID : ClientID) (ownerToken : OwnerToken) : Operation → Broker
  | .subscribe topics =>
    { broker with subCenter := (broker.subCenter.createSub clientID ownerToken topics).1 }
  | .unsubscribe topics =>
    { broker with subCenter := (broker.subCenter.deleteSub clientID ownerToken topics).1 }
  | .upsertIncoming packetID unfinished now =>
    broker.withSessions (broker.sessions.upsertIncomingUnfinished now
      { clientID := clientID, ownerToken := ownerToken, packetID := packetID,
        unfinishedMessage := unfinished, nowUnixNano := now })
  | .removeIncoming packetID now =>
    broker.withSessions (broker.sessions.removeIncomingUnfinished now
      { clientID := clientID, ownerToken := ownerToken, packetID := packetID,
        nowUnixNano := now })
  | .removeOutgoing messageID now =>
    broker.withSessions (broker.sessions.removeOutgoingUnfinished now
      { clientID := clientID, messageID := messageID, nowUnixNano := now })
  | .commitOutgoing unfinished cursor now =>
    broker.withSessions (broker.sessions.commitOutgoingProgress now
      { clientID := clientID, ownerToken := ownerToken, unfinishedMessages := unfinished,
        outgoingReplayCursor := cursor, nowUnixNano := now })
  | .advanceCursor position =>
    { broker with
      deliveries := Function.update broker.deliveries clientID
        ((broker.deliveries clientID).advanceCursor position).1 }

end Broker

variable (parties : Parties)

def closeStep (s : TakeoverState) (label : CloseLabel) :
    Option TakeoverState :=
  match label with
  | .close =>
    if s.aPhase = .running then
      some { s with
        aPhase := .closing
        scheduledRollbacks := s.broker.shareGroups parties.clientID }
    else none
  | .save snapshot succeeds =>
    if s.aPhase = .closing then
      some { s with
        aPhase := .saved
        broker :=
          if succeeds then s.broker.persistUnfinishedMessagesToSession parties.a snapshot
          else s.broker }
    else none
  | .schedule =>
    if s.aPhase = .saved then
      some { s with
        aPhase :=
          match sessionExpiryDuration parties.a.sessionExpiryInterval with
          | none => .done
          | some 0 => .expiring
          | some _ => .waiting }
    else none
  | .ownerRead succeeds =>
    if s.aPhase = .waiting then
      let ownerRead : Except Unit (Option SessionOwner) :=
        if succeeds then .ok (s.broker.sessions.getSessionOwner parties.clientID)
        else .error ()
      some { s with
        aPhase :=
          if shouldExpireClosedClient ownerRead parties.clientID parties.a.ownerToken then
            .expiring
          else .done }
    else none
  | .deleteSubscriptions succeeds =>
    if s.aPhase = .expiring then
      some { s with
        aPhase := .unsubscribed
        broker :=
          if succeeds then s.broker.deleteClientSubscriptions parties.a else s.broker }
    else none
  | .deleteDeliveryState succeeds =>
    if s.aPhase = .unsubscribed then
      some { s with
        aPhase := .dequeued
        broker :=
          if succeeds then s.broker.deleteClientDeliveryState parties.a else s.broker }
    else none
  | .deleteSession succeeds =>
    if s.aPhase = .dequeued then
      some { s with
        aPhase := .done
        broker := if succeeds then s.broker.deleteSession parties.a else s.broker }
    else none
  | .rollbackCheck shareGroup =>
    if shareGroup ∈ s.scheduledRollbacks then
      some { s with
        scheduledRollbacks := s.scheduledRollbacks.erase shareGroup
        activeRollbacks :=
          if s.registered.isSome then s.activeRollbacks
          else shareGroup :: s.activeRollbacks }
    else none
  | .rollbackDelete shareGroup rolledBackAny =>
    if shareGroup ∈ s.activeRollbacks then
      some { s with
        activeRollbacks := s.activeRollbacks.erase shareGroup
        broker :=
          if rolledBackAny then
            { s.broker with
              deliveries :=
                s.broker.deliveries.deleteClientSharedTasks parties.clientID shareGroup }
          else s.broker }
    else none
  | .unregister =>
    some { s with registered := if s.registered = some .a then none else s.registered }

def connectStep (s : TakeoverState) (label : ConnectLabel) :
    Option TakeoverState :=
  match label with
  | .openSession will now =>
    if s.bPhase = .idle then
      let opened := s.broker.sessions.openSessionForConnect now
        { clientID := parties.clientID, willMessage := will,
          sessionExpiryInterval := parties.b.sessionExpiryInterval, nowUnixNano := now }
      some { s with
        bPhase := .opened
        broker := s.broker.withSessions (opened.map Prod.fst) }
    else none
  | .replace will now =>
    if s.bPhase = .opened ∧ parties.cleanStart = true then
      some { s with
        bPhase := .replaced
        broker := s.broker.withSessions (s.broker.sessions.replaceSessionStateOnCleanStart
          { clientID := parties.clientID, willMessage := will,
            sessionExpiryInterval := parties.b.sessionExpiryInterval, nowUnixNano := now }) }
    else none
  | .takeOver nodeID =>
    if s.bPhase = .replaced ∨ s.bPhase = .opened ∧ parties.cleanStart = false then
      let taken := s.broker.sessions.takeOverSessionOwner
        { clientID := parties.clientID, nodeID := nodeID,
          ownerToken := parties.b.ownerToken, online := true }
      some { s with
        bPhase := .owner
        broker := s.broker.withSessions (taken.map Prod.fst) }
    else none
  | .setOwnerToken =>
    if s.bPhase = .owner then
      some { s with
        bPhase := if parties.cleanStart then .fenced else .cleaned
        broker := { s.broker with
          subCenter := (s.broker.subCenter.setClientOwnerToken parties.clientID
            parties.b.ownerToken).1 } }
    else none
  | .deleteSubscriptions =>
    if s.bPhase = .fenced then
      some { s with
        bPhase := .unsubscribed
        broker := s.broker.deleteClientSubscriptions parties.b }
    else none
  | .deleteDeliveryState =>
    if s.bPhase = .unsubscribed then
      some { s with
        bPhase := .cleaned
        broker := s.broker.deleteClientDeliveryState parties.b }
    else none
  | .register =>
    if s.bPhase = .cleaned then some { s with bPhase := .connected, registered := some .b }
    else none
  | .operation operation =>
    if s.bPhase = .connected then
      some { s with
        broker := s.broker.apply parties.clientID parties.b.ownerToken operation }
    else none
  | .save interval snapshot =>
    if s.bPhase = .connected then
      some { s with
        bPhase := if interval = 0 then .ended else .offline
        broker := s.broker.persistUnfinishedMessagesToSession
          { parties.b with sessionExpiryInterval := interval } snapshot }
    else none
  | .unregister =>
    some { s with registered := if s.registered = some .b then none else s.registered }
  | .endSession => if s.bPhase = .offline then some { s with bPhase := .ended } else none

def takeover : System TakeoverState TakeoverLabel where
  step s label :=
    match label with
    | .a label => closeStep parties s label
    | .b label => connectStep parties s label
    | .append task =>
      some { s with
        broker := { s.broker with
          deliveries := Function.update s.broker.deliveries parties.clientID
            ((s.broker.deliveries parties.clientID).appendTask task).1 } }

/-- `A` saves outside the gap in which `B` has opened the session without owning it, does not
close with interval `0`, its owner read neither fails nor falls into that gap, its rollbacks
find a registered connection, and `B` does not open during a cleanup or rollback of `A`. -/
def Undisturbed (s : TakeoverState) : TakeoverLabel → Prop
  | .a (.save _ _) => s.bPhase.acquiring = false
  | .a .schedule => s.bPhase.holding = true → parties.a.sessionExpiryInterval ≠ 0
  | .a (.ownerRead succeeds) =>
    s.bPhase.holding = true → succeeds = true ∧ s.bPhase.acquiring = false
  | .a (.rollbackCheck _) => s.bPhase.holding = true → s.registered.isSome = true
  | .b (.openSession _ _) => s.aPhase.cleaning = false ∧ s.activeRollbacks = []
  | _ => True

/-- The records of `clientID` are the same in both brokers. -/
structure Broker.SameClient (a b : Broker) (clientID : ClientID) : Prop where
  session : a.sessions.sessions clientID = b.sessions.sessions clientID
  owner : a.sessions.owners clientID = b.sessions.owners clientID
  subscriptions : a.subCenter.subscriptions clientID = b.subCenter.subscriptions clientID
  queue : (a.deliveries clientID).tasks = (b.deliveries clientID).tasks
  cursor : (a.deliveries clientID).cursor = (b.deliveries clientID).cursor

def Parties.start (broker : Broker) : TakeoverState where
  broker := broker
  aPhase := .running
  bPhase := .idle
  registered := some .a
  scheduledRollbacks := []
  activeRollbacks := []

def Broker.OwnedBy (broker : Broker) (clientID : ClientID) (ownerToken : OwnerToken) : Prop :=
  ∃ owner, broker.sessions.owners clientID = some owner ∧ owner.ownerToken = ownerToken

/-- What an undisturbed run maintains while `B` holds the session. -/
structure Guarded (parties : Parties) (s : TakeoverState) : Prop where
  notCleaning : s.bPhase.holding = true → s.aPhase.cleaning = false
  noRollback : s.bPhase.holding = true → s.activeRollbacks = []
  owned : s.bPhase.holding = true → s.bPhase.acquiring = false →
    s.broker.OwnedBy parties.clientID parties.b.ownerToken
  live : s.bPhase.holding = true → s.bPhase ≠ .offline →
    s.broker.sessions.Live parties.clientID

theorem Guarded.of_not_holding {parties : Parties} {s : TakeoverState}
    (hf : s.bPhase.holding = false) : Guarded parties s := by
  constructor
  all_goals
    intro hh
    rw [hf] at hh
    cases hh

theorem Guarded.advance {parties : Parties} {s next : TakeoverState}
    (guarded : Guarded parties s) (held : s.bPhase.holding = true)
    (acquired : s.bPhase.acquiring = false) (online : s.bPhase ≠ .offline)
    (sameA : next.aPhase = s.aPhase) (sameRollbacks : next.activeRollbacks = s.activeRollbacks)
    (sameSessions : next.broker.sessions = s.broker.sessions) : Guarded parties next := by
  refine ⟨fun _ => ?_, fun _ => ?_, fun _ _ => ?_, fun _ _ => ?_⟩
  · rw [sameA]
    exact guarded.notCleaning held
  · rw [sameRollbacks]
    exact guarded.noRollback held
  · obtain ⟨owner, recorded, token⟩ := guarded.owned held acquired
    exact ⟨owner, by rw [sameSessions, recorded], token⟩
  · rw [sameSessions]
    exact guarded.live held online

namespace Broker

variable {brk : Broker}

theorem persist_of_ownedBy_other (client : Connection) (snap : OfflineSnapshot)
    {tok : OwnerToken} (hne : client.ownerToken ≠ tok)
    (ho : brk.OwnedBy client.id tok) :
    brk.persistUnfinishedMessagesToSession client snap = brk := by
  obtain ⟨owner, hr, ht⟩ := ho
  unfold persistUnfinishedMessagesToSession validateClientOwnerRequest
  by_cases hu : client.id = ""
  · simp [hu]
  · by_cases noTok : client.ownerToken = ""
    · simp [hu, noTok]
    · by_cases noNum : snap.localNodeID = 0
      · simp [hu, noTok, noNum]
      · have hs : brk.sessions.staleOwner client.id client.ownerToken = true := by
          simp [Core.staleOwner, hr, ht, noTok, Ne.symm hne]
        simp [hu, noTok, noNum, Core.saveOfflineState, Connection.offlineRequest, hs]

theorem persist_ownedBy (client : Connection) (snapshot : OfflineSnapshot)
    {ownerToken : OwnerToken} (hk : client.sessionExpiryInterval ≠ 0)
    (ho : brk.OwnedBy client.id ownerToken) :
    (brk.persistUnfinishedMessagesToSession client snapshot).OwnedBy client.id ownerToken := by
  unfold persistUnfinishedMessagesToSession
  split
  · exact ho
  · split
    next => exact ho
    next saved =>
      obtain ⟨owner, hr, ht⟩ := ho
      obtain ⟨current, currentRecorded, tokenEq⟩ := saveOfflineState_ownerToken hk hr saved
      exact ⟨current, currentRecorded, tokenEq.trans ht⟩

theorem withSessions_keepsOwner {clientID : ClientID} {result : Except String Core}
    (hl : brk.sessions.Live clientID)
    (hk : ∀ next, result = .ok next → Core.KeepsOwner brk.sessions next clientID) :
    Core.KeepsOwner brk.sessions (brk.withSessions result).sessions clientID := by
  cases result with
  | error message => exact .of_eq hl
  | ok next => exact hk next rfl

theorem apply_keepsOwner {clientID : ClientID} (ownerToken : OwnerToken) (operation : Operation)
    (hl : brk.sessions.Live clientID) :
    Core.KeepsOwner brk.sessions (brk.apply clientID ownerToken operation).sessions
      clientID := by
  cases operation with
  | subscribe topics | unsubscribe topics | advanceCursor position => exact .of_eq hl
  | upsertIncoming packetID unfinished now =>
    apply withSessions_keepsOwner hl
    intro next hd
    exact upsertIncomingUnfinished_keepsOwner _ _ hl hd
  | removeIncoming packetID now =>
    apply withSessions_keepsOwner hl
    intro next hd
    exact removeIncomingUnfinished_keepsOwner _ _ hl hd
  | removeOutgoing messageID now =>
    apply withSessions_keepsOwner hl
    intro next hd
    exact removeOutgoingUnfinished_keepsOwner _ _ hl hd
  | commitOutgoing unfinished cursor now =>
    apply withSessions_keepsOwner hl
    intro next hd
    exact commitOutgoingProgress_keepsOwner _ _ hl hd

end Broker

section Steps

variable {parties : Parties} {s next : TakeoverState}

/-- A step of `A` that writes to no store and starts neither a cleanup nor a rollback. -/
structure Quiet (s next : TakeoverState) : Prop where
  broker : next.broker = s.broker
  notCleaning : next.aPhase.cleaning = false
  noRollback : next.activeRollbacks = []

variable {label : CloseLabel}

/-- While `B` holds the session, the steps of `A` are quiet. -/
theorem closeStep_quiet (hg : Guarded parties s)
    (hu : Undisturbed parties s (.a label)) (hh : s.bPhase.holding = true)
    (ht : closeStep parties s label = some next) : Quiet s next := by
  have dirty := hg.notCleaning hh
  have noBack := hg.noRollback hh
  cases label with
  | close =>
    obtain ⟨-, rfl⟩ := of_guard ht
    exact ⟨rfl, rfl, noBack⟩
  | save snap succeeds =>
    obtain ⟨-, rfl⟩ := of_guard ht
    refine ⟨?_, rfl, noBack⟩
    cases succeeds with
    | false => rfl
    | true =>
      have ho := hg.owned hh hu
      rw [← parties.sameA] at ho
      exact Broker.persist_of_ownedBy_other parties.a snap parties.fresh ho
  | schedule =>
    obtain ⟨-, rfl⟩ := of_guard ht
    refine ⟨rfl, ?_, noBack⟩
    have hp := hu hh
    cases hd : sessionExpiryDuration parties.a.sessionExpiryInterval with
    | none => rfl
    | some seconds =>
      have he : parties.a.sessionExpiryInterval = seconds := by
        unfold sessionExpiryDuration at hd
        split_ifs at hd
        exact Option.some.inj hd
      cases seconds with
      | zero => exact absurd he hp
      | succ rest => rfl
  | ownerRead succeeds =>
    obtain ⟨-, rfl⟩ := of_guard ht
    obtain ⟨rfl, acquired⟩ := hu hh
    refine ⟨rfl, ?_, noBack⟩
    obtain ⟨owner, recorded, own⟩ := hg.owned hh acquired
    simp [shouldExpireClosedClient, parties.named, parties.tokened, Core.getSessionOwner,
      recorded, own, parties.fresh.symm, ClosePhase.cleaning]
  | deleteSubscriptions succeeds | deleteDeliveryState succeeds | deleteSession succeeds =>
    obtain ⟨phase, -⟩ := Option.ite_none_right_eq_some.mp ht
    simp [phase, ClosePhase.cleaning] at dirty
  | rollbackCheck grp =>
    obtain ⟨-, rfl⟩ := of_guard ht
    refine ⟨rfl, dirty, ?_⟩
    have hr : s.registered.isSome = true := hu hh
    simp only [hr, if_true]
    exact noBack
  | rollbackDelete grp back =>
    obtain ⟨ha, -⟩ := Option.ite_none_right_eq_some.mp ht
    simp [noBack] at ha
  | unregister =>
    cases ht
    exact ⟨rfl, dirty, noBack⟩

theorem closeStep_bPhase (ht : closeStep parties s label = some next) : next.bPhase = s.bPhase := by
  cases label with
  | unregister =>
    cases ht
    rfl
  | _ =>
    obtain ⟨-, rfl⟩ := of_guard ht
    rfl

theorem closeStep_guarded (hg : Guarded parties s)
    (hu : Undisturbed parties s (.a label)) (ht : closeStep parties s label = some next) :
    Guarded parties next := by
  have phaseEq := closeStep_bPhase ht
  cases hh : s.bPhase.holding with
  | false => exact .of_not_holding (by rw [phaseEq, hh])
  | true =>
    have hq := closeStep_quiet hg hu hh ht
    refine ⟨fun _ => hq.notCleaning, fun _ => hq.noRollback, ?_, ?_⟩
    · rw [phaseEq, hq.broker]
      exact hg.owned
    · rw [phaseEq, hq.broker]
      exact hg.live

theorem connectStep_guarded {label : ConnectLabel} (hg : Guarded parties s)
    (hu : Undisturbed parties s (.b label))
    (ht : connectStep parties s label = some next) : Guarded parties next := by
  cases label with
  | openSession will now =>
    obtain ⟨-, rfl⟩ := of_guard ht
    refine ⟨fun _ => hu.1, fun _ => hu.2, ?_, fun _ _ => ?_⟩
    · intro _ ha
      cases ha
    · simp only [Core.openSessionForConnect, if_neg parties.named]
      exact live_setSession _ rfl
  | replace will now =>
    obtain ⟨⟨hp, -⟩, rfl⟩ := of_guard ht
    have hh : s.bPhase.holding = true := by rw [hp]; rfl
    refine ⟨fun _ => hg.notCleaning hh, fun _ => hg.noRollback hh, ?_, fun _ _ => ?_⟩
    · intro _ ha
      cases ha
    · simp only [Broker.withSessions, Core.replaceSessionStateOnCleanStart, if_neg parties.named]
      exact live_setSession _ rfl
  | takeOver nodeID =>
    obtain ⟨hp, rfl⟩ := of_guard ht
    have hh : s.bPhase.holding = true ∧ s.bPhase ≠ .offline := by
      rcases hp with hp | ⟨hp, -⟩ <;> rw [hp] <;> exact ⟨rfl, by decide⟩
    refine ⟨fun _ => hg.notCleaning hh.1, fun _ => hg.noRollback hh.1, ?_, ?_⟩
    · intro _ _
      simp only [Broker.withSessions, Core.takeOverSessionOwner, if_neg parties.named, Except.map]
      exact ⟨_, setOwner_owners_self _ _ _, rfl⟩
    · intro _ _
      simp only [Broker.withSessions, Core.takeOverSessionOwner, if_neg parties.named, Except.map]
      exact hg.live hh.1 hh.2
  | setOwnerToken | deleteSubscriptions | deleteDeliveryState | register =>
    obtain ⟨hp, rfl⟩ := of_guard ht
    exact hg.advance (by rw [hp]; rfl) (by rw [hp]; rfl) (by rw [hp]; decide) rfl rfl rfl
  | operation operation =>
    obtain ⟨hp, rfl⟩ := of_guard ht
    have hh : s.bPhase.holding = true := by rw [hp]; rfl
    have hk := Broker.apply_keepsOwner parties.b.ownerToken operation
      (hg.live hh (by rw [hp]; decide))
    refine ⟨fun _ => hg.notCleaning hh, fun _ => hg.noRollback hh, ?_, fun _ _ => hk.live⟩
    intro _ _
    obtain ⟨owner, hr, token⟩ := hg.owned hh (by rw [hp]; rfl)
    exact ⟨owner, hk.owner.trans hr, token⟩
  | save interval snapshot =>
    obtain ⟨hp, rfl⟩ := of_guard ht
    have hh : s.bPhase.holding = true := by rw [hp]; rfl
    by_cases ends : interval = 0
    · exact .of_not_holding (by simp [ends, ConnectPhase.holding])
    · refine ⟨fun _ => hg.notCleaning hh, fun _ => hg.noRollback hh, ?_, ?_⟩
      · intro _ _
        have owned := hg.owned hh (by rw [hp]; rfl)
        rw [← parties.sameB] at owned ⊢
        exact Broker.persist_ownedBy { parties.b with sessionExpiryInterval := interval }
          snapshot ends owned
      · intro _ ho
        simp [ends] at ho
  | unregister =>
    cases ht
    exact { hg with }
  | endSession =>
    obtain ⟨-, rfl⟩ := of_guard ht
    exact .of_not_holding rfl

theorem takeover_guarded {label : TakeoverLabel} (hg : Guarded parties s)
    (hu : Undisturbed parties s label)
    (ht : (takeover parties).step s label = some next) : Guarded parties next := by
  cases label with
  | a label => exact closeStep_guarded hg hu ht
  | b label => exact connectStep_guarded hg hu ht
  | append task =>
    cases ht
    exact { hg with }

/-- In every undisturbed run, whatever `A` does after `B` has opened its session leaves
the session, owner record, subscriptions, queue and cursor of `B` as they are. -/
theorem takeover_keeps_new_owner (parties : Parties) (broker : Broker) (s next : TakeoverState)
    (label : CloseLabel)
    (reached : (takeover parties).Reached (Undisturbed parties) (Parties.start broker) s)
    (undisturbed : Undisturbed parties s (.a label))
    (taken : (takeover parties).step s (.a label) = some next)
    (held : s.bPhase.holding = true) :
    next.broker.SameClient s.broker parties.clientID := by
  have hg := reached.invariant (.of_not_holding rfl) fun _ _ _ => takeover_guarded
  have hq := closeStep_quiet hg undisturbed held taken
  rw [hq.broker]
  exact ⟨rfl, rfl, rfl, rfl, rfl⟩

end Steps

section Runs

def alice (interval : Nat) : Parties where
  clientID := "alice"
  a := { id := "alice", ownerToken := "tokenA", sessionExpiryInterval := interval }
  b := { id := "alice", ownerToken := "tokenB", sessionExpiryInterval := 3600 }
  cleanStart := false
  named := by decide
  sameA := rfl
  sameB := rfl
  tokened := by simp
  fresh := by simp

def acceptedA (interval : Nat) : Broker where
  sessions := (Core.empty.setSession "alice"
    { clientID := "alice", sessionExpiryInterval := interval }).setOwner "alice"
      { clientID := "alice", nodeID := 1, ownerToken := "tokenA", online := true }
  subCenter := MemorySubCenter.empty.setOwnerToken "alice" "tokenA"
  deliveries := fun _ => .empty
  shareGroups := fun _ => []
  registered := fun _ => true

def connects : List TakeoverLabel :=
  [.b (.openSession none 1), .b (.takeOver 1), .b .setOwnerToken, .b .register]

/-- `B` connects and then the replaced connection starts to close. -/
theorem takeover_keeps_new_owner_alice : ∃ s next, s.bPhase = .connected ∧
      (takeover (alice 3600)).step s (.a (.save {} true)) = some next ∧
      next.broker.SameClient s.broker "alice" :=
  ⟨_, _, rfl, rfl, takeover_keeps_new_owner (alice 3600) (acceptedA 3600) _ _ (.save {} true)
    (System.reached_of_run (show (takeover (alice 3600)).run (Parties.start (acceptedA 3600))
        (connects ++ [.a .close]) = some _ from rfl)
      ⟨⟨rfl, rfl⟩, trivial, trivial, trivial, trivial, trivial⟩)
    rfl rfl rfl⟩

def closesAtOnce : List TakeoverLabel :=
  [.a .close, .a (.save {} true), .a .schedule, .a (.deleteSubscriptions true),
    .a (.deleteDeliveryState true)]

/-- `A` negotiated interval `0`: closed by the takeover, it deletes the session and the
owner record of the connected `B`. -/
theorem takeover_deletes_new_owner :
    ∃ s next, (takeover (alice 0)).run (Parties.start (acceptedA 0))
        (connects ++ closesAtOnce) = some s ∧
      (takeover (alice 0)).step s (.a (.deleteSession true)) = some next ∧
      s.bPhase = .connected ∧
      s.broker.sessions.owners "alice" =
        some { clientID := "alice", nodeID := 1, ownerToken := "tokenB", online := true } ∧
      next.broker.sessions.owners "alice" = none ∧
      s.broker.sessions.sessions "alice" =
        some { clientID := "alice", sessionExpiryInterval := 3600 } ∧
      next.broker.sessions.sessions "alice" = none :=
  ⟨_, _, rfl, rfl, rfl, rfl, rfl, rfl, rfl⟩

end Runs

end SkyTree.Client
