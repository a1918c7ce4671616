import SkyTree.Client.Close
import SkyTree.Will.Scanner

/-!
# The Will of a closing connection

When a connection closes, its Will is dropped, published at once, or scheduled: at the end
of the session if the session ends first, and after the Will delay otherwise. A scheduled
Will becomes a task of the Will-delay center.
-/

namespace SkyTree.Will

open Mqtt Session Client

/-- The fields of a connection that the handling of its Will depends on. The delay counts
seconds. -/
structure ClosingClient where
  connection : Connection
  willMessage : Option Publish
  willDelay : Nat := 0
  connAckAccepted : Bool := true
  deriving DecidableEq, Repr

def shouldPublishWillForDisconnect (reason : Int) : Bool := reason == 4 || reason == -1

def willPublishOnClose (client : ClosingClient) : Option Publish :=
  if client.connAckAccepted &&
      shouldPublishWillForDisconnect client.connection.disconnectWithoutWill then
    client.willMessage
  else none

def shouldPublishWillAtSessionExpiry (willDelay : Nat) (expiry : Option Nat) : Bool :=
  match expiry with
  | none => false
  | some expiry => decide (0 < willDelay ∧ expiry ≤ willDelay)

inductive WillPlan where
  | nothing
  | publish (content : Publish)
  | atSessionExpiry (content : Publish) (expiry : Nat)
  | afterDelay (content : Publish) (delay : Nat)
  deriving DecidableEq, Repr

def handleWillOnClose (client : ClosingClient) : WillPlan :=
  match willPublishOnClose client with
  | none => .nothing
  | some content =>
    if client.connection.ownerToken = "" then .nothing
    else
      match sessionExpiryDuration client.connection.sessionExpiryInterval with
      | some 0 => .publish content
      | expiry =>
        if shouldPublishWillAtSessionExpiry client.willDelay expiry then
          .atSessionExpiry content client.connection.sessionExpiryInterval
        else if client.willDelay = 0 then .publish content
        else .afterDelay content client.willDelay

def scheduledPublishTime (nowUnixNano : Int) (seconds : Nat) : Int :=
  nowUnixNano / 1000 + seconds * 1000000

def ClosingClient.task (client : ClosingClient) (nowUnixNano : Int) (seconds : Nat) :
    WillDelayTask where
  clientID := client.connection.id
  scheduledPublishTime := scheduledPublishTime nowUnixNano seconds
  ownerToken := client.connection.ownerToken

def ClosingClient.message (client : ClosingClient) (content : Publish) : Message where
  publish := content
  sendClientID := client.connection.id
  ownerToken := client.connection.ownerToken

structure WillBroker where
  broker : Broker
  center : DelayCenter

namespace WillBroker

/-- `AddTask`; a refused task changes nothing. -/
def addTask (state : WillBroker) (task : WillDelayTask) : WillBroker :=
  match state.center.addTask task with
  | .error _ => state
  | .ok center => { state with center := center }

/-- The close of a connection whose store calls all succeed: the offline save, then the Will
at the clock reading `now`. -/
def close (state : WillBroker) (client : ClosingClient) (snapshot : OfflineSnapshot) (now : Int) :
    WillBroker × Option Message :=
  let saved := { state with
    broker := state.broker.persistUnfinishedMessagesToSession client.connection snapshot }
  match handleWillOnClose client with
  | .nothing => (saved, none)
  | .publish content => (saved, some (client.message content))
  | .atSessionExpiry _ expiry => (saved.addTask (client.task now expiry), none)
  | .afterDelay _ delay => (saved.addTask (client.task now delay), none)

end WillBroker

end SkyTree.Will
