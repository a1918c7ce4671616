import SkyTree.Client.Close
import SkyTree.Foundation.Transition

/-!
# Connections that end before their CONNECT is accepted

The client identifier is set as soon as the CONNECT is valid, while the owner token
and the expiry interval are set only after admission, plugin and enhanced
authentication agreed. A connection refused in between closes with an identifier, an empty
token and the interval `0`, and the close path deletes what is stored for the identifier.
-/

namespace SkyTree.Client

open Foundation Session Subscription Delivery DeliveryStore

inductive AuthAnswer where
  | failed
  | success
  | continueAuthentication
  | rejected
  deriving DecidableEq, Repr

structure ConnectAnswers where
  validConnect : Bool := true
  assignedClientID : ClientID := "assigned"
  auth : AuthAnswer := .success
  authPacketWritten : Bool := true
  admissionReasonCode : Nat := 0
  pluginAccepts : Bool := true
  deriving DecidableEq, Repr

inductive Inbound where
  | connect (packet : Connect)
  | auth (authMethod : String) (continues : Bool)
  | disconnect (reasonCode : Nat) (allowed serverReference : Bool)
      (sessionExpiryInterval : Option Nat)
  | otherPacket
  | readError
  deriving DecidableEq, Repr

inductive Phase where
  | running (client : Connection)
  | closed (client : Connection)
  | accepted (client : Connection)
  deriving DecidableEq, Repr

section

variable (client : Connection)

/-- The two gates before the session is acquired. -/
def completeConnect (answers : ConnectAnswers) : Phase :=
  if answers.admissionReasonCode ≠ 0 then .closed client
  else if !answers.pluginAccepts then .closed client
  else .accepted client

def handleInitialEnhancedAuth (packet : Connect)
    (answers : ConnectAnswers) : Phase :=
  if packet.authMethod = "" ∨ client.enhancedAuthState = .authenticated then
    completeConnect client answers
  else
    let client := { client with enhancedAuthMethod := packet.authMethod }
    match answers.auth with
    | .failed => .closed client
    | .success => completeConnect { client with enhancedAuthState := .authenticated } answers
    | .continueAuthentication =>
      let waiting := { client with
        enhancedAuthState := .authenticating, pendingEnhancedAuthConnect := some packet }
      if answers.authPacketWritten then .running waiting else .closed waiting
    | .rejected => .closed client

def handleConnect (packet : Connect) (answers : ConnectAnswers) : Phase :=
  if !answers.validConnect then .closed client
  else
    let id := if packet.clientID = "" then answers.assignedClientID else packet.clientID
    handleInitialEnhancedAuth { client with id := id } packet answers

def handleAuth (authMethod : String) (continues : Bool)
    (answers : ConnectAnswers) : Phase :=
  if authMethod = "" ∨ client.enhancedAuthMethod = "" ∨ authMethod ≠ client.enhancedAuthMethod ∨
      client.enhancedAuthState ≠ .authenticating ∨ continues = false then .closed client
  else
    match answers.auth with
    | .failed => .closed client
    | .continueAuthentication =>
      if answers.authPacketWritten then .running client else .closed client
    | .success =>
      match client.pendingEnhancedAuthConnect with
      | none => .closed client
      | some _ => completeConnect { client with
          enhancedAuthState := .authenticated, pendingEnhancedAuthConnect := none } answers
    | .rejected => .closed client

end

def capSessionExpiryInterval (interval maximum : Nat) : Nat :=
  if maximum = 0 ∨ interval = neverExpireSessionInterval then interval else min interval maximum

/-- `maximum` is the broker's session expiry limit. -/
def handleDisconnect (maximum : Nat) (client : Connection) (reasonCode : Nat)
    (allowed serverReference : Bool) (interval : Option Nat) : Phase :=
  if !allowed || serverReference then .closed client
  else
    match interval with
    | none => .closed { client with disconnectWithoutWill := reasonCode }
    | some seconds =>
      if client.connectSessionExpiryInterval = 0 ∧ seconds ≠ 0 then .closed client
      else .closed { client with
        sessionExpiryInterval := capSessionExpiryInterval seconds maximum
        disconnectWithoutWill := reasonCode }

/-- `HandlePacket` for a connection whose CONNECT has not been accepted. -/
def handlePacket (maximum : Nat) (client : Connection) (inbound : Inbound)
    (answers : ConnectAnswers) : Phase :=
  match inbound with
  | .connect packet =>
    if client.id ≠ "" then .closed client else handleConnect client packet answers
  | .auth authMethod continues =>
    if client.id = "" then .closed client else handleAuth client authMethod continues answers
  | .disconnect reasonCode allowed serverReference interval =>
    if client.id = "" then .closed client
    else handleDisconnect maximum client reasonCode allowed serverReference interval
  | .otherPacket => .closed client
  | .readError => .closed client

def connecting (maximum : Nat) : System Phase (Inbound × ConnectAnswers) where
  step phase event :=
    match phase with
    | .running client => some (handlePacket maximum client event.1 event.2)
    | .closed _ => none
    | .accepted _ => none

structure Connection.Unacquired (client : Connection) : Prop where
  token : client.ownerToken = ""
  interval : client.sessionExpiryInterval = 0
  connectInterval : client.connectSessionExpiryInterval = 0

def Phase.Unacquired : Phase → Prop
  | .running client => client.Unacquired
  | .closed client => client.Unacquired
  | .accepted client => client.Unacquired

variable {cli : Connection}

theorem completeConnect_unacquired (answers : ConnectAnswers) (hf : cli.Unacquired) :
    (completeConnect cli answers).Unacquired := by
  unfold completeConnect
  split
  · exact hf
  · split <;> exact hf

theorem handleConnect_unacquired (packet : Connect) (answers : ConnectAnswers)
    (hf : cli.Unacquired) :
    (handleConnect cli packet answers).Unacquired := by
  obtain ⟨ht, hi, initial⟩ := hf
  unfold handleConnect handleInitialEnhancedAuth
  split
  · exact ⟨ht, hi, initial⟩
  · simp only
    split
    · exact completeConnect_unacquired _ ⟨ht, hi, initial⟩
    · cases answers.auth with
      | failed | rejected => exact ⟨ht, hi, initial⟩
      | success => exact completeConnect_unacquired _ ⟨ht, hi, initial⟩
      | continueAuthentication =>
        simp only
        split <;> exact ⟨ht, hi, initial⟩

theorem handleAuth_unacquired (authMethod : String) (continues : Bool) (answers : ConnectAnswers)
    (hf : cli.Unacquired) :
    (handleAuth cli authMethod continues answers).Unacquired := by
  unfold handleAuth
  split
  · exact hf
  · cases answers.auth with
    | failed | rejected => exact hf
    | continueAuthentication =>
      simp only
      split <;> exact hf
    | success =>
      cases cli.pendingEnhancedAuthConnect with
      | none => exact hf
      | some packet =>
        exact completeConnect_unacquired _ ⟨hf.token, hf.interval, hf.connectInterval⟩

theorem handleDisconnect_unacquired {maximum : Nat} (code : Nat)
    (allowed serverReference : Bool) (ival : Option Nat) (hf : cli.Unacquired) :
    (handleDisconnect maximum cli code allowed serverReference ival).Unacquired := by
  unfold handleDisconnect
  split
  · exact hf
  · cases ival with
    | none => exact ⟨hf.token, hf.interval, hf.connectInterval⟩
    | some seconds =>
      simp only
      split
      next => exact hf
      next hr =>
        have hz : seconds = 0 := by
          by_contra hn
          exact hr ⟨hf.connectInterval, hn⟩
        subst hz
        refine ⟨hf.token, ?_, hf.connectInterval⟩
        simp [capSessionExpiryInterval]

theorem handlePacket_unacquired {maximum : Nat} (inbound : Inbound) (answers : ConnectAnswers)
    (hf : cli.Unacquired) :
    (handlePacket maximum cli inbound answers).Unacquired := by
  cases inbound with
  | connect packet =>
    simp only [handlePacket]
    split
    · exact hf
    · exact handleConnect_unacquired packet answers hf
  | auth authMethod continues =>
    simp only [handlePacket]
    split
    · exact hf
    · exact handleAuth_unacquired authMethod continues answers hf
  | disconnect code allowed serverReference ival =>
    simp only [handlePacket]
    split
    · exact hf
    · exact handleDisconnect_unacquired code allowed serverReference ival hf
  | otherPacket | readError => exact hf

/-- No inbound sequence sets the token or the interval before acceptance. -/
theorem connecting_unacquired {maximum : Nat} {phase : Phase}
    (hr : (connecting maximum).Reached (fun _ _ => True) (.running {}) phase) :
    phase.Unacquired := by
  have hi : Phase.Unacquired (.running {}) := ⟨rfl, rfl, rfl⟩
  refine hr.invariant hi ?_
  intro cur event next hf _ ht
  cases cur with
  | running cli =>
    cases ht
    exact handlePacket_unacquired event.1 event.2 hf
  | closed cli | accepted cli => exact absurd ht (by simp [connecting])

namespace Broker

/-- The two brokers store the same sessions, Wills, owners, subscriptions, delivery
queues and cursors, for every client. -/
structure SameStored (a b : Broker) : Prop where
  sessions : a.sessions = b.sessions
  subscriptions : ∀ clientID,
    a.subCenter.subscriptions clientID = b.subCenter.subscriptions clientID
  deliveries : a.deliveries = b.deliveries

structure NothingStored (broker : Broker) (clientID : ClientID) : Prop where
  session : broker.sessions.sessions clientID = none
  owner : broker.sessions.owners clientID = none
  subscriptions : ∀ shardKey, broker.subCenter.subscriptions clientID shardKey = .empty
  deliveries : broker.deliveries clientID = .empty

variable {brk : Broker} {cli : Connection}

theorem persist_of_empty_token (snap : OfflineSnapshot) (ht : cli.ownerToken = "") :
    brk.persistUnfinishedMessagesToSession cli snap = brk := by
  unfold persistUnfinishedMessagesToSession validateClientOwnerRequest
  by_cases hu : cli.id = "" <;> simp [hu, ht]

theorem cleanup_sameStored_iff (hn : cli.id ≠ "") (ht : cli.ownerToken = "") :
    (brk.cleanupExpiredSessionState cli).SameStored brk ↔ brk.NothingStored cli.id := by
  unfold cleanupExpiredSessionState
  rw [if_neg hn]
  constructor
  · rintro ⟨sessEq, subsEq, delsEq⟩
    obtain ⟨gone, free⟩ := (Core.deleteSession_eq_self_iff _ _).mp sessEq
    refine ⟨gone, free, fun key => ?_, ?_⟩
    · rw [← subsEq]
      exact brk.subCenter.deleteClient_subscriptions_self hn (.inl ht) key
    · rw [← congrFun delsEq cli.id]
      exact deleteClientState_self _ _
  · rintro ⟨gone, free, hh, noDels⟩
    refine ⟨(Core.deleteSession_eq_self_iff _ _).mpr ⟨gone, free⟩, fun cid => ?_, ?_⟩
    · by_cases he : cid = cli.id
      · subst he
        funext key
        rw [hh key]
        exact brk.subCenter.deleteClient_subscriptions_self hn (.inl ht) key
      · exact brk.subCenter.deleteClient_subscriptions_of_ne _ he
    · exact Function.update_eq_self_iff.mpr noDels.symm

theorem rollbackShareGroup_of_no_tasks (rolledBack : DeliveryTask → Bool) (grp : String)
    (hn : (brk.deliveries cli.id).tasks.entries = []) :
    brk.rollbackShareGroup cli.id rolledBack grp = brk := by
  have none : (brk.deliveries cli.id).unackedSharedTasks grp = [] := by
    unfold ClientQueue.unackedSharedTasks
    split <;> simp [hn, Foundation.OrderedLog.after, Foundation.OrderedLog.dropThrough,
      Foundation.OrderedLog.filter]
  unfold rollbackShareGroup
  rw [none]
  simp

theorem rollbackOffline_of_no_tasks (rolledBack : DeliveryTask → Bool)
    (hn : (brk.deliveries cli.id).tasks.entries = []) :
    brk.rollbackOffline cli.id rolledBack = brk := by
  unfold rollbackOffline
  split
  · rfl
  · induction brk.shareGroups cli.id with
    | nil => rfl
    | cons grp rest ih =>
      rw [List.foldl_cons, rollbackShareGroup_of_no_tasks rolledBack grp hn]
      exact ih

theorem SameStored.symm {a b : Broker} (he : a.SameStored b) : b.SameStored a :=
  ⟨he.sessions.symm, fun cid => (he.subscriptions cid).symm, he.deliveries.symm⟩

theorem SameStored.trans {a b c : Broker} (first : a.SameStored b) (hs : b.SameStored c) :
    a.SameStored c :=
  ⟨first.sessions.trans hs.sessions,
    fun cid => (first.subscriptions cid).trans (hs.subscriptions cid),
    first.deliveries.trans hs.deliveries⟩

structure RollbackFrame (clientID : ClientID) (after before : Broker) : Prop where
  sessions : after.sessions = before.sessions
  subCenter : after.subCenter = before.subCenter
  deliveries : ∀ other, other ≠ clientID → after.deliveries other = before.deliveries other

theorem rollbackShareGroup_frame (brk : Broker) (cid : ClientID)
    (rolledBack : DeliveryTask → Bool) (grp : String) :
    RollbackFrame cid (brk.rollbackShareGroup cid rolledBack grp) brk := by
  unfold rollbackShareGroup
  split
  · exact ⟨rfl, rfl, fun _ _ => rfl⟩
  · split
    · refine ⟨rfl, rfl, ?_⟩
      intro o hne
      exact Function.update_of_ne hne _ _
    · exact ⟨rfl, rfl, fun _ _ => rfl⟩

theorem rollbackOffline_frame (brk : Broker) (cid : ClientID) (rolledBack : DeliveryTask → Bool) :
    RollbackFrame cid (brk.rollbackOffline cid rolledBack) brk := by
  unfold rollbackOffline
  split
  · exact ⟨rfl, rfl, fun _ _ => rfl⟩
  · generalize brk.shareGroups cid = shareGroups
    induction shareGroups generalizing brk with
    | nil => exact ⟨rfl, rfl, fun _ _ => rfl⟩
    | cons grp rest ih =>
      have hh := brk.rollbackShareGroup_frame cid rolledBack grp
      have ht := ih (brk.rollbackShareGroup cid rolledBack grp)
      refine ⟨ht.sessions.trans hh.sessions, ht.subCenter.trans hh.subCenter, ?_⟩
      intro o hne
      exact (ht.deliveries o hne).trans (hh.deliveries o hne)

theorem cleanup_of_rollbackFrame {early : Broker} (hn : cli.id ≠ "")
    (hf : RollbackFrame cli.id early brk) :
    (early.cleanupExpiredSessionState cli).SameStored (brk.cleanupExpiredSessionState cli) := by
  unfold cleanupExpiredSessionState
  rw [if_neg hn, if_neg hn]
  refine ⟨?_, ?_, ?_⟩
  · exact congrArg (fun sessions => sessions.deleteSession cli.id) hf.sessions
  · intro clientID
    exact congrArg (fun center : MemorySubCenter =>
      ((center.deleteClient cli.id cli.ownerToken).1).subscriptions clientID) hf.subCenter
  · funext other
    by_cases he : other = cli.id
    · subst he
      exact (deleteClientState_self _ _).trans (deleteClientState_self _ _).symm
    · calc early.deliveries.deleteClientState cli.id other
          = early.deliveries other := deleteClientState_of_ne _ he
        _ = brk.deliveries other := hf.deliveries other he
        _ = brk.deliveries.deleteClientState cli.id other := (deleteClientState_of_ne _ he).symm

theorem cleanup_no_tasks (hn : cli.id ≠ "") :
    ((brk.cleanupExpiredSessionState cli).deliveries cli.id).tasks.entries = [] := by
  have he : (brk.cleanupExpiredSessionState cli).deliveries cli.id = .empty := by
    unfold cleanupExpiredSessionState
    rw [if_neg hn]
    exact deleteClientState_self _ _
  rw [he]
  rfl

/-- Closing a connection that never acquired a session is one forced cleanup. -/
theorem close_unacquired (brk : Broker) (env : CloseEnvironment)
    (hf : cli.Unacquired) (hn : cli.id ≠ "") :
    (brk.close cli env).SameStored (brk.cleanupExpiredSessionState cli) := by
  have hi (cur : Broker) :
      (cur.persistUnfinishedMessagesToSession cli env.snapshot).sessionExpiryCleanup
        cli env.ownerReadFails = cur.cleanupExpiredSessionState cli := by
    rw [persist_of_empty_token env.snapshot hf.token]
    simp [sessionExpiryCleanup, sessionExpiryDuration, hf.interval, neverExpireSessionInterval]
  unfold close
  cases env.rollbackFirst with
  | true =>
    simp only [if_true, hi]
    exact cleanup_of_rollbackFrame hn (rollbackOffline_frame brk cli.id _)
  | false =>
    simp only [Bool.false_eq_true, if_false, hi]
    rw [rollbackOffline_of_no_tasks _ (cleanup_no_tasks hn)]
    exact ⟨rfl, fun _ => rfl, rfl⟩

theorem close_unnamed (env : CloseEnvironment) (hf : cli.Unacquired)
    (hu : cli.id = "") : brk.close cli env = brk := by
  simp [close, persist_of_empty_token env.snapshot hf.token, sessionExpiryCleanup,
    sessionExpiryDuration, hf.interval, neverExpireSessionInterval,
    cleanupExpiredSessionState, rollbackOffline, hu]

/-- A connection that ends before its CONNECT is accepted leaves the stores alone
exactly when nothing is stored under the identifier it named. -/
theorem refused_connect_keeps_stores_iff (broker : Broker) (maximum : Nat) (client : Connection)
    (environment : CloseEnvironment)
    (refused : (connecting maximum).Reached (fun _ _ => True) (.running {}) (.closed client)) :
    (broker.close client environment).SameStored broker ↔
      client.id = "" ∨ broker.NothingStored client.id := by
  have hf : client.Unacquired := connecting_unacquired refused
  by_cases hu : client.id = ""
  · rw [close_unnamed environment hf hu]
    exact ⟨fun _ => .inl hu, fun _ => ⟨rfl, fun _ => rfl, rfl⟩⟩
  · have hc := broker.close_unacquired environment hf hu
    rw [← cleanup_sameStored_iff hu hf.token]
    constructor
    · intro he
      exact .inr (hc.symm.trans he)
    · intro alts
      rcases alts with ha | he
      · exact absurd ha hu
      · exact hc.trans he

theorem plugin_refusal_reached :
    (connecting 0).Reached (fun _ _ => True) (.running {}) (.closed { id := "alice" }) := by
  have he : (connecting 0).run (.running {})
      [(.connect { clientID := "alice" }, { pluginAccepts := false })] =
        some (.closed { id := "alice" }) := by decide
  exact System.reached_of_run he ⟨trivial, trivial⟩

def withSession (clientID : ClientID) : Broker where
  __ := Broker.empty
  sessions := Core.empty.setSession clientID
    ( { clientID := clientID, sessionExpiryInterval := 3600 } : SessionState)

/-- A CONNECT that the plugin refuses, while another client has a session. -/
theorem refused_connect_keeps_stores_iff_unused :
    ((withSession "bob").close { id := "alice" } {}).SameStored (withSession "bob") :=
  (refused_connect_keeps_stores_iff (withSession "bob") 0 { id := "alice" } {}
    plugin_refusal_reached).mpr (.inr ⟨rfl, rfl, fun _ => rfl, rfl⟩)

/-- A CONNECT that the plugin refuses deletes the stored session it named. -/
theorem refused_connect_deletes_session : ∃ (broker : Broker) (client : Connection),
      (connecting 0).Reached (fun _ _ => True) (.running {}) (.closed client) ∧
      broker.sessions.sessions "alice" =
        some { clientID := "alice", sessionExpiryInterval := 3600 } ∧
      (broker.close client {}).sessions.sessions "alice" = none :=
  ⟨withSession "alice", { id := "alice" }, plugin_refusal_reached, rfl, rfl⟩

end Broker

end SkyTree.Client
