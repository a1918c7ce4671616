import SkyTree.Session.Center
import SkyTree.Subscription.Center
import SkyTree.Delivery.Store

/-!
# Closing a connection

Every connection ends in the same close path: save the offline state, then clean
up at once, after the session-expiry timer, or never, depending on the expiry
interval the connection carries. The path is cut into the store calls it makes,
since another connection of the client can run between any two of them.
-/

namespace SkyTree.Client

open Session Subscription Delivery

/-- The stores shared by all connections, the share groups remembered per client
and the clients registered on this node. -/
structure Broker where
  sessions : Core
  subCenter : MemorySubCenter
  deliveries : DeliveryStore
  shareGroups : ClientID → List String
  registered : ClientID → Bool

def Broker.empty : Broker where
  sessions := .empty
  subCenter := .empty
  deliveries := fun _ => .empty
  shareGroups := fun _ => []
  registered := fun _ => false

inductive EnhancedAuthState where
  | idle
  | authenticating
  | authenticated
  | reauthenticating
  deriving DecidableEq, Repr

structure Connect where
  clientID : ClientID
  authMethod : String := ""
  deriving DecidableEq, Repr

/-- The runtime fields of a connection that its close path depends on. -/
structure Connection where
  id : ClientID := ""
  ownerToken : OwnerToken := ""
  sessionExpiryInterval : Nat := 0
  connectSessionExpiryInterval : Nat := 0
  disconnectWithoutWill : Int := -1
  enhancedAuthMethod : String := ""
  enhancedAuthState : EnhancedAuthState := .idle
  pendingEnhancedAuthConnect : Option Connect := none
  deriving DecidableEq, Repr

structure OfflineSnapshot where
  unfinishedMessages : List UnfinishedMessage := []
  outgoingReplayCursor : Option OutgoingReplayCursor := none
  localNodeID : Nat := 1
  now : Int := 1

/-- The Will stays stored when the connection ended abnormally or asked for it. -/
def clearsWill (disconnectFlag : Int) : Bool :=
  disconnectFlag != 4 && disconnectFlag != -1

def Connection.offlineRequest (client : Connection) (snapshot : OfflineSnapshot) :
    SaveOfflineStateRequest where
  clientID := client.id
  ownerToken := client.ownerToken
  unfinishedMessages := snapshot.unfinishedMessages
  outgoingReplayCursor := snapshot.outgoingReplayCursor
  clearWill := clearsWill client.disconnectWithoutWill
  sessionExpiryInterval := client.sessionExpiryInterval
  nowUnixNano := snapshot.now

/-- `sessionExpiryDuration` in seconds; `none` for a session that never expires. -/
def sessionExpiryDuration (interval : Nat) : Option Nat :=
  if interval = neverExpireSessionInterval then none else some interval

/-- The expiry timer cleans up unless the owner record shows another owner or an
online one; a read that fails or finds no owner counts as expired. -/
def shouldExpireClosedClient (ownerRead : Except Unit (Option SessionOwner)) (clientID : ClientID)
    (ownerToken : OwnerToken) : Bool :=
  if clientID = "" ∨ ownerToken = "" then true
  else match ownerRead with
    | .error _ => true
    | .ok none => true
    | .ok (some owner) => !owner.online && owner.ownerToken == ownerToken

namespace Broker

variable (broker : Broker) (client : Connection)

def persistUnfinishedMessagesToSession (snapshot : OfflineSnapshot) : Broker :=
  match validateClientOwnerRequest client.id client.ownerToken snapshot.localNodeID with
  | .error _ => broker
  | .ok () =>
    match broker.sessions.saveOfflineState snapshot.now (client.offlineRequest snapshot) with
    | .error _ => broker
    | .ok sessions => { broker with sessions := sessions }

def deleteClientSubscriptions : Broker :=
  { broker with subCenter := (broker.subCenter.deleteClient client.id client.ownerToken).1 }

def deleteClientDeliveryState : Broker :=
  { broker with deliveries := broker.deliveries.deleteClientState client.id }

def deleteSession : Broker :=
  { broker with sessions := broker.sessions.deleteSession client.id }

/-- The three calls of an expiry cleanup; only the first carries the owner token. -/
def cleanupExpiredSessionState : Broker :=
  if client.id = "" then broker
  else ((broker.deleteClientSubscriptions client).deleteClientDeliveryState client).deleteSession
    client

/-- One delayed rollback: a client that is registered again keeps its tasks, and the
queued share-group tasks go when at least one of them was rolled back. -/
def rollbackShareGroup (clientID : ClientID) (rolledBack : DeliveryTask → Bool)
    (shareGroup : String) : Broker :=
  if broker.registered clientID then broker
  else if ((broker.deliveries clientID).unackedSharedTasks shareGroup).any rolledBack then
    { broker with deliveries := broker.deliveries.deleteClientSharedTasks clientID shareGroup }
  else broker

def rollbackOffline (clientID : ClientID) (rolledBack : DeliveryTask → Bool) : Broker :=
  if clientID = "" then broker
  else (broker.shareGroups clientID).foldl
    (fun current shareGroup => current.rollbackShareGroup clientID rolledBack shareGroup) broker

end Broker

/-- What the environment decides about a close: whether the delayed rollbacks run
before the cleanup, which of their tasks roll back, and the timer's owner read. -/
structure CloseEnvironment where
  snapshot : OfflineSnapshot := {}
  rollbackFirst : Bool := false
  rolledBack : DeliveryTask → Bool := fun _ => true
  ownerReadFails : Bool := false

namespace Broker

variable (broker : Broker) (client : Connection)

/-- `scheduleSessionExpiryCleanup` together with what it schedules. -/
def sessionExpiryCleanup (ownerReadFails : Bool) : Broker :=
  match sessionExpiryDuration client.sessionExpiryInterval with
  | none => broker
  | some 0 => broker.cleanupExpiredSessionState client
  | some _ =>
    let ownerRead : Except Unit (Option SessionOwner) :=
      if ownerReadFails then .error () else .ok (broker.sessions.getSessionOwner client.id)
    if shouldExpireClosedClient ownerRead client.id client.ownerToken then
      broker.cleanupExpiredSessionState client
    else broker

/-- The whole close path run without interruption, scheduled work included. -/
def close (environment : CloseEnvironment) : Broker :=
  let early := if environment.rollbackFirst then
    broker.rollbackOffline client.id environment.rolledBack else broker
  let saved := early.persistUnfinishedMessagesToSession client environment.snapshot
  let cleaned := saved.sessionExpiryCleanup client environment.ownerReadFails
  if environment.rollbackFirst then cleaned
  else cleaned.rollbackOffline client.id environment.rolledBack

end Broker

end SkyTree.Client
