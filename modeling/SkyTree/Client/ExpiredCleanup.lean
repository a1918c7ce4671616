import SkyTree.Client.Takeover

/-!
# The expired-session job and connects of the same clients

The job removes every expired session and its owner record in one call of the session center. It
then deletes the subscriptions and the delivery state of each client it found, in two further calls
without an owner token. Connects, connected clients and publishers run between any two calls.
-/

namespace SkyTree.Client

open Foundation Session Subscription Delivery List DeliveryStore

inductive CleanupCall where
  | subscriptions
  | deliveryState
  deriving DecidableEq, Repr

/-- `pending` holds the calls the job still has to make, and `renewed` the clients whose session was
opened or taken over since the job last found them expired. -/
structure CleanupState where
  broker : Broker
  pending : List (CleanupCall × ClientID)
  renewed : ClientID → Bool

def cleanupCalls (clientID : ClientID) : List (CleanupCall × ClientID) :=
  if clientID = "" then [] else [(.subscriptions, clientID), (.deliveryState, clientID)]

inductive CleanupLabel where
  | deleteExpired (now : Int) (listed : List ClientID)
  | cleanup (succeeds : Bool)
  | openSession (clock : Int) (request : OpenSessionForConnectRequest)
  | replace (request : OpenSessionForConnectRequest)
  | takeOver (owner : SessionOwner)
  | setOwnerToken (clientID : ClientID) (ownerToken : OwnerToken)
  | deleteSubscriptions (client : Connection)
  | deleteDeliveryState (client : Connection)
  | operation (clientID : ClientID) (ownerToken : OwnerToken) (operation : Operation)
  | save (client : Connection) (snapshot : OfflineSnapshot)
  | append (clientID : ClientID) (task : DeliveryTask)

namespace CleanupCall

def run (broker : Broker) (clientID : ClientID) : CleanupCall → Broker
  | .subscriptions => { broker with subCenter := (broker.subCenter.deleteClient clientID "").1 }
  | .deliveryState => { broker with deliveries := broker.deliveries.deleteClientState clientID }

def Idle (broker : Broker) (clientID : ClientID) : CleanupCall → Prop
  | .subscriptions => ∀ shardKey, broker.subCenter.subscriptions clientID shardKey = .empty
  | .deliveryState => broker.deliveries clientID = .empty

end CleanupCall

def renew (renewed : ClientID → Bool) (clientID : ClientID) : ClientID → Bool :=
  if clientID = "" then renewed else Function.update renewed clientID true

/-- One call of the job, of a connect, of a connected client or of a publisher. `listed` is the
order in which the job meets the sessions; it returns the expired ones of them. -/
def cleanupJob : System CleanupState CleanupLabel where
  step s label :=
    match label with
    | .deleteExpired now listed =>
      if s.pending = [] then
        let deleted := listed.filter fun clientID =>
          sessionExpired (s.broker.sessions.sessions clientID) now
        some {
          broker := { s.broker with sessions := s.broker.sessions.deleteExpiredSessions now now }
          pending := deleted.flatMap cleanupCalls
          renewed := fun clientID => s.renewed clientID && !deleted.contains clientID }
      else none
    | .cleanup succeeds =>
      match s.pending with
      | [] => none
      | (call, clientID) :: rest =>
        some { s with
          broker := if succeeds then call.run s.broker clientID else s.broker
          pending := rest }
    | .openSession clock request =>
      some { s with
        broker := s.broker.withSessions
          ((s.broker.sessions.openSessionForConnect clock request).map Prod.fst)
        renewed := renew s.renewed request.clientID }
    | .replace request =>
      some { s with
        broker := s.broker.withSessions (s.broker.sessions.replaceSessionStateOnCleanStart request)
        renewed := renew s.renewed request.clientID }
    | .takeOver owner =>
      some { s with
        broker := s.broker.withSessions
          ((s.broker.sessions.takeOverSessionOwner owner).map Prod.fst)
        renewed := renew s.renewed owner.clientID }
    | .setOwnerToken clientID ownerToken =>
      some { s with
        broker := { s.broker with
          subCenter := (s.broker.subCenter.setClientOwnerToken clientID ownerToken).1 } }
    | .deleteSubscriptions client =>
      some { s with broker := s.broker.deleteClientSubscriptions client }
    | .deleteDeliveryState client =>
      some { s with broker := s.broker.deleteClientDeliveryState client }
    | .operation clientID ownerToken operation =>
      some { s with broker := s.broker.apply clientID ownerToken operation }
    | .save client snapshot =>
      some { s with broker := s.broker.persistUnfinishedMessagesToSession client snapshot }
    | .append clientID task =>
      some { s with
        broker := { s.broker with
          deliveries := s.broker.deliveries.appendClientTask clientID task } }

def CleanupState.start (broker : Broker) : CleanupState := ⟨broker, [], fun _ => false⟩

/-- Whoever opened or took over a session since keeps its subscriptions, queue and cursor. -/
def KeepsRenewed (s next : CleanupState) : Prop :=
  ∀ clientID, s.renewed clientID = true →
    next.broker.subCenter.subscriptions clientID = s.broker.subCenter.subscriptions clientID ∧
      next.broker.deliveries clientID = s.broker.deliveries clientID

/-! ## What a call of the job deletes -/

section Calls

variable (brk : Broker) {cid other : ClientID} (call : CleanupCall)

theorem CleanupCall.run_of_ne (hne : other ≠ cid) :
    (call.run brk cid).subCenter.subscriptions other = brk.subCenter.subscriptions other ∧
      (call.run brk cid).deliveries other = brk.deliveries other := by
  cases call with
  | subscriptions =>
    exact ⟨brk.subCenter.deleteClient_subscriptions_of_ne "" hne, rfl⟩
  | deliveryState => exact ⟨rfl, deleteClientState_of_ne _ hne⟩

/-- The calls are not fenced: they delete whatever is there. -/
theorem CleanupCall.run_self_iff (hn : cid ≠ "") : ((call.run brk cid).subCenter.subscriptions cid =
        brk.subCenter.subscriptions cid ∧
      (call.run brk cid).deliveries cid = brk.deliveries cid) ↔
      call.Idle brk cid := by
  cases call with
  | subscriptions =>
    have bare := brk.subCenter.deleteClient_subscriptions_self hn (.inl rfl)
    constructor
    · rintro ⟨he, -⟩ key
      exact (congrFun he key).symm.trans (bare key)
    · intro hi
      exact ⟨funext fun key => (bare key).trans (hi key).symm, rfl⟩
  | deliveryState =>
    have bare := deleteClientState_self brk.deliveries cid
    constructor
    · rintro ⟨-, he⟩
      exact he.symm.trans bare
    · intro hi
      exact ⟨rfl, bare.trans (Eq.symm hi)⟩

end Calls

/-! ## Runs -/

theorem named_of_mem_cleanupCalls {call : CleanupCall} {cid other : ClientID}
    (hm : (call, cid) ∈ cleanupCalls other) : cid ≠ "" ∧ cid = other := by
  unfold cleanupCalls at hm
  split at hm
  · cases hm
  next hn =>
    simp only [mem_cons, Prod.mk.injEq, not_mem_nil, or_false] at hm
    rcases hm with ⟨-, rfl⟩ | ⟨-, rfl⟩ <;> exact ⟨hn, rfl⟩

theorem pending_named {brk : Broker} {condition : CleanupState → CleanupLabel → Prop}
    {s : CleanupState} (hr : cleanupJob.Reached condition (.start brk) s) :
    ∀ e ∈ s.pending, e.2 ≠ "" := by
  induction hr with
  | refl => simp [CleanupState.start]
  | @step s next label _ _ ht hn =>
    cases label with
    | deleteExpired now listed =>
      simp only [cleanupJob] at ht
      split at ht
      · cases ht
        rintro ⟨call, cid⟩ hm
        obtain ⟨other, -, made⟩ := mem_flatMap.mp hm
        exact (named_of_mem_cleanupCalls made).1
      · cases ht
    | cleanup succeeds =>
      simp only [cleanupJob] at ht
      split at ht
      · cases ht
      next calls =>
        cases ht
        exact fun e hm => hn e (calls ▸ mem_cons_of_mem _ hm)
    | _ =>
      cases ht
      exact hn

def CleanupLabel.ofJob : CleanupLabel → Prop
  | .deleteExpired _ _ | .cleanup _ => True
  | _ => False

/-- A call of the job that takes effect comes before every new connect of its client, or finds
nothing to delete. -/
def SparesRenewed (s : CleanupState) : CleanupLabel → Prop
  | .cleanup true => ∀ call clientID rest, s.pending = (call, clientID) :: rest →
      s.renewed clientID = true → call.Idle s.broker clientID
  | _ => True

/-- A step of the job keeps what belongs to the sessions opened or taken over since the job found
the old ones expired, exactly when its client has no such session or nothing of it is stored
yet. -/
theorem job_keeps_renewed_iff {broker : Broker} {s next : CleanupState} {label : CleanupLabel}
    (reached : cleanupJob.Reached (fun _ _ => True) (.start broker) s) (ofJob : label.ofJob)
    (taken : cleanupJob.step s label = some next) :
    KeepsRenewed s next ↔ SparesRenewed s label := by
  have hn := pending_named reached
  cases label with
  | deleteExpired now listed =>
    simp only [cleanupJob] at taken
    split at taken
    · cases taken
      exact iff_of_true (fun _ _ => ⟨rfl, rfl⟩) trivial
    · cases taken
  | cleanup succeeds =>
    simp only [cleanupJob] at taken
    split at taken
    · cases taken
    next call clientID rest hc =>
      cases taken
      cases succeeds with
      | false => exact iff_of_true (fun _ _ => ⟨rfl, rfl⟩) trivial
      | true =>
        have own := call.run_self_iff s.broker (hn (call, clientID) (by simp [hc]))
        constructor
        · intro hk _ _ _ he hr
          obtain ⟨⟨rfl, rfl⟩, -⟩ : (call = _ ∧ clientID = _) ∧ rest = _ := by
            simpa using hc.symm.trans he
          exact own.mp (hk clientID hr)
        · intro hs other hr
          by_cases he : other = clientID
          · subst he
            exact own.mpr (hs call other rest hc hr)
          · exact call.run_of_ne s.broker he
  | _ => exact ofJob.elim

/-- No connect opens or takes over a session of a client that the job still has to clean up. -/
def Apart (s : CleanupState) : CleanupLabel → Prop
  | .openSession _ request | .replace request => ∀ call, (call, request.clientID) ∉ s.pending
  | .takeOver owner => ∀ call, (call, owner.clientID) ∉ s.pending
  | _ => True

theorem renew_of_not_mem {renewed : ClientID → Bool} {pending : List (CleanupCall × ClientID)}
    {cid : ClientID} (ho : ∀ e ∈ pending, renewed e.2 = false)
    (ha : ∀ call, (call, cid) ∉ pending) :
    ∀ e ∈ pending, renew renewed cid e.2 = false := by
  rintro ⟨call, other⟩ hm
  have hne : other ≠ cid := by
    rintro rfl
    exact ha call hm
  unfold renew
  split
  · exact ho _ hm
  · simpa [hne] using ho _ hm

/-- While connects keep apart from the job, it only cleans up after expired sessions. -/
theorem not_renewed_of_apart {brk : Broker} {s : CleanupState}
    (hr : cleanupJob.Reached Apart (.start brk) s) :
    ∀ e ∈ s.pending, s.renewed e.2 = false := by
  induction hr with
  | refl => simp [CleanupState.start]
  | @step s next label _ ha ht ho =>
    cases label with
    | deleteExpired now listed =>
      simp only [cleanupJob] at ht
      split at ht
      · cases ht
        rintro ⟨call, cid⟩ hm
        obtain ⟨other, deleted, made⟩ := mem_flatMap.mp hm
        obtain ⟨-, rfl⟩ := named_of_mem_cleanupCalls made
        have hf := contains_iff_mem.mpr deleted
        simp only [hf, Bool.not_true, Bool.and_false]
      · cases ht
    | cleanup succeeds =>
      simp only [cleanupJob] at ht
      split at ht
      · cases ht
      next calls =>
        cases ht
        exact fun e hm => ho e (calls ▸ mem_cons_of_mem _ hm)
    | openSession clock req | replace req | takeOver owner =>
      cases ht
      exact renew_of_not_mem ho ha
    | _ =>
      cases ht
      exact ho

theorem job_keeps_renewed_of_apart {broker : Broker} {s next : CleanupState} {succeeds : Bool}
    (reached : cleanupJob.Reached Apart (.start broker) s)
    (taken : cleanupJob.step s (.cleanup succeeds) = some next) : KeepsRenewed s next := by
  intro clientID hr
  simp only [cleanupJob] at taken
  split at taken
  · cases taken
  next call other rest hc =>
    cases taken
    have hne : clientID ≠ other := by
      rintro rfl
      have := not_renewed_of_apart reached (call, clientID) (by simp [hc])
      simp_all
    cases succeeds with
    | true => exact call.run_of_ne s.broker hne
    | false => exact ⟨rfl, rfl⟩

/-! ## A reconnect between two calls -/

/-- The stores while `alice` is away; her session expired at `5`. -/
def aliceAway : Broker :=
  { Broker.empty with
    sessions := (Core.empty.setSession "alice"
      { clientID := "alice", sessionExpiryInterval := 1, expireAtUnixNano := 5 }).setOwner "alice"
        { clientID := "alice", nodeID := 1, ownerToken := "tokenA", online := false } }

/-- The job finds `alice` expired, and she connects before it cleans up. -/
def reconnects : List CleanupLabel :=
  [.deleteExpired 6 ["alice"],
    .openSession 6 ⟨"alice", none, 3600, 6⟩,
    .takeOver { clientID := "alice", nodeID := 1, ownerToken := "tokenB", online := true },
    .setOwnerToken "alice" "tokenB"]

/-- Nothing is lost while the new session has no subscription. -/
theorem job_keeps_renewed_unsubscribed :
    ∃ s next, cleanupJob.run (.start aliceAway) reconnects = some s ∧ s.renewed "alice" = true ∧
      cleanupJob.step s (.cleanup true) = some next ∧ KeepsRenewed s next := by
  have ofJob : (CleanupLabel.cleanup true).ofJob := trivial
  refine ⟨_, _, rfl, rfl, rfl, ?_⟩
  refine (job_keeps_renewed_iff (System.reached_of_run (show cleanupJob.run (.start aliceAway)
    reconnects = some _ from rfl) (.of_forall fun _ _ _ => trivial)) ofJob rfl).mpr ?_
  intro call clientID rest hc _
  obtain ⟨⟨rfl, rfl⟩, -⟩ := List.cons.inj hc
  exact fun shardKey => rfl

/-- The subscription of the new session is deleted by the job. -/
theorem job_deletes_renewed : ∃ s next, cleanupJob.run (.start aliceAway)
        (reconnects ++ [.operation "alice" "tokenB" (.subscribe [{ topic := "a", qos := 1 }])]) =
          some s ∧
      s.renewed "alice" = true ∧ cleanupJob.step s (.cleanup true) = some next ∧
      next.broker.sessions.owners "alice" =
        some { clientID := "alice", nodeID := 1, ownerToken := "tokenB", online := true } ∧
      ((s.broker.subCenter.subscriptions "alice" "a").get "a").isSome = true ∧
      ((next.broker.subCenter.subscriptions "alice" "a").get "a").isSome = false :=
  ⟨_, _, rfl, rfl, rfl, rfl, by decide +kernel, by decide +kernel⟩

/-- `bob` connects while the job cleans up after `alice`. -/
theorem job_keeps_renewed_bob :
    let labels := [.deleteExpired 6 ["alice"], .openSession 6 ⟨"bob", none, 3600, 6⟩]
    ∃ s next, cleanupJob.run (.start aliceAway) labels = some s ∧
      cleanupJob.step s (.cleanup true) = some next ∧ KeepsRenewed s next := by
  intro labels
  have met : cleanupJob.Meets Apart (.start aliceAway) labels :=
    ⟨trivial, by rintro (_ | _) <;> decide, trivial⟩
  exact ⟨_, _, rfl, rfl, job_keeps_renewed_of_apart (System.reached_of_run rfl met) rfl⟩

end SkyTree.Client
