import SkyTree.Session.Center
import SkyTree.Subscription.Center

/-!
# Acquiring a session while its old connection saves

The state router opens a session, replaces it on clean start, takes over its owner record and
mirrors the owner token, one store operation after the other. The old connection of the
client saves its offline state in one operation that may fall between any two of these.
-/

namespace SkyTree.StateRouter

open Mqtt Session Subscription Function

/-! ## Requests -/

structure AcquireSessionRequest where
  brokerNodeID : Nat
  clientID : ClientID
  ownerToken : OwnerToken
  willMessage : Option WillMessage := none
  sessionExpiryInterval : Nat
  cleanStart : Bool
  nowUnixNano : Int

structure AcquireSessionResponse where
  openSession : OpenSessionForConnectResponse
  previousOwner : Option SessionOwner
  deriving DecidableEq, Repr

/-- The router passes no Will, so a save clears the stored one or leaves it. -/
structure SaveOfflineStateRequest where
  brokerNodeID : Nat
  clientID : ClientID
  ownerToken : OwnerToken
  unfinishedMessages : List UnfinishedMessage := []
  outgoingReplayCursor : Option OutgoingReplayCursor := none
  clearWill : Bool
  sessionExpiryInterval : Nat
  nowUnixNano : Int

def SaveOfflineStateRequest.validate (request : SaveOfflineStateRequest) : Except String Unit :=
  validateClientOwnerRequest request.clientID request.ownerToken request.brokerNodeID

def validateAcquireSessionRequest (request : AcquireSessionRequest) : Except String Unit :=
  match validateClientOwnerRequest request.clientID request.ownerToken request.brokerNodeID with
  | .error err => .error err
  | .ok () => if request.nowUnixNano ≤ 0 then .error "now unix nano is required" else .ok ()

namespace AcquireSessionRequest

variable (request : AcquireSessionRequest)

def opening : OpenSessionForConnectRequest where
  clientID := request.clientID
  willMessage := request.willMessage
  sessionExpiryInterval := request.sessionExpiryInterval
  nowUnixNano := request.nowUnixNano

def owner : SessionOwner where
  clientID := request.clientID
  nodeID := request.brokerNodeID
  ownerToken := request.ownerToken
  online := true

end AcquireSessionRequest

def SaveOfflineStateRequest.offline (request : SaveOfflineStateRequest) :
    Session.SaveOfflineStateRequest where
  clientID := request.clientID
  ownerToken := request.ownerToken
  unfinishedMessages := request.unfinishedMessages
  outgoingReplayCursor := request.outgoingReplayCursor
  clearWill := request.clearWill
  sessionExpiryInterval := request.sessionExpiryInterval
  nowUnixNano := request.nowUnixNano

variable (req : SaveOfflineStateRequest)

@[simp] theorem SaveOfflineStateRequest.offline_clientID :
    req.offline.clientID = req.clientID := rfl

@[simp] theorem SaveOfflineStateRequest.offline_ownerToken :
    req.offline.ownerToken = req.ownerToken := rfl

@[simp] theorem SaveOfflineStateRequest.offline_interval :
    req.offline.sessionExpiryInterval = req.sessionExpiryInterval := rfl

/-! ## The two calls -/

structure Centers where
  sessions : Core
  subscriptions : MemorySubCenter

/-- Where `AcquireSession` stands between its store operations. -/
inductive AcquirePhase where
  | called
  | opened (openResp : OpenSessionForConnectResponse)
  | replaced (openResp : OpenSessionForConnectResponse)
  | owned (openResp : OpenSessionForConnectResponse) (previousOwner : Option SessionOwner)
  | returned (result : Except String AcquireSessionResponse)

section Calls

variable (clock : Nat) (request : AcquireSessionRequest) (save : SaveOfflineStateRequest)

def openSession (centers : Centers) : Centers × AcquirePhase :=
  match centers.sessions.openSessionForConnect clock request.opening with
  | .error err => (centers, .returned (.error err))
  | .ok (sessions, openResp) => ({ centers with sessions := sessions }, .opened openResp)

def replaceSession (openResp : OpenSessionForConnectResponse) (centers : Centers) :
    Centers × AcquirePhase :=
  match centers.sessions.replaceSessionStateOnCleanStart request.opening with
  | .error err => (centers, .returned (.error err))
  | .ok sessions => ({ centers with sessions := sessions }, .replaced openResp)

def takeOverOwner (openResp : OpenSessionForConnectResponse) (centers : Centers) :
    Centers × AcquirePhase :=
  match centers.sessions.takeOverSessionOwner request.owner with
  | .error err => (centers, .returned (.error err))
  | .ok (sessions, previousOwner) =>
    ({ centers with sessions := sessions }, .owned openResp previousOwner)

/-- `AcquireSession` up to and including its next store operation. Mirroring the token never
fails: for an empty client identifier it is skipped. -/
def acquireStep : Centers × AcquirePhase → Centers × AcquirePhase
  | (centers, .called) =>
    match validateAcquireSessionRequest request with
    | .error err => (centers, .returned (.error err))
    | .ok () => openSession clock request centers
  | (centers, .opened openResp) =>
    if request.cleanStart then replaceSession request openResp centers
    else takeOverOwner request openResp centers
  | (centers, .replaced openResp) => takeOverOwner request openResp centers
  | (centers, .owned openResp previousOwner) =>
    ({ centers with
      subscriptions :=
        (centers.subscriptions.setClientOwnerToken request.clientID request.ownerToken).1 },
      .returned (.ok ⟨openResp, previousOwner⟩))
  | (centers, .returned result) => (centers, .returned result)

/-- The rest of `AcquireSession`; it has at most four operations. -/
def acquireRest : Centers × AcquirePhase → Centers × AcquirePhase :=
  (acquireStep clock request)^[4]

def saveOfflineState (centers : Centers) : Centers × Except String Unit :=
  match save.validate with
  | .error err => (centers, .error err)
  | .ok () =>
    match centers.sessions.saveOfflineState clock save.offline with
    | .error err => (centers, .error err)
    | .ok sessions => ({ centers with sessions := sessions }, .ok ())

/-- The save falls after `before` operations of `AcquireSession`. -/
def interleaved (before : Nat) (centers : Centers) : Centers × AcquirePhase :=
  let (middle, phase) := (acquireStep clock request)^[before] (centers, .called)
  acquireRest clock request ((saveOfflineState clock save middle).1, phase)

def saveThenAcquire (centers : Centers) : Centers × AcquirePhase :=
  acquireRest clock request ((saveOfflineState clock save centers).1, .called)

def acquireThenSave (centers : Centers) : Centers × AcquirePhase :=
  let (final, phase) := acquireRest clock request (centers, .called)
  ((saveOfflineState clock save final).1, phase)

end Calls

/-- What is compared: the stored session and owner record, and what the new connection was told
about its session. -/
structure Outcome where
  session : Option SessionState
  owner : Option SessionOwner
  openSession : Option OpenSessionForConnectResponse
  deriving DecidableEq, Repr

def outcome (clientID : ClientID) : Centers × AcquirePhase → Outcome
  | (centers, phase) =>
    { session := centers.sessions.sessions clientID
      owner := centers.sessions.owners clientID
      openSession := match phase with
        | .returned (.ok response) => some response.openSession
        | _ => none }

/-! ## The steps of a call that is not refused -/

section Steps

variable {clock : Nat} {req : AcquireSessionRequest} {save : SaveOfflineStateRequest}
  {cens : Centers} {openResp : OpenSessionForConnectResponse}

theorem named_of_validate {cid : ClientID} {tok : OwnerToken} {brokerNodeID : Nat}
    (hv : validateClientOwnerRequest cid tok brokerNodeID = .ok ()) :
    cid ≠ "" ∧ tok ≠ "" := by
  unfold validateClientOwnerRequest at hv
  split_ifs at hv with noClient noToken
  exact ⟨noClient, noToken⟩

theorem named_of_validateAcquire (hv : validateAcquireSessionRequest req = .ok ()) :
    req.clientID ≠ "" ∧ 0 < req.nowUnixNano := by
  unfold validateAcquireSessionRequest at hv
  split at hv
  next => cases hv
  next owned =>
    split_ifs at hv with noTime
    exact ⟨(named_of_validate owned).1, not_le.mp noTime⟩

@[simp] theorem acquireStep_returned (res : Except String AcquireSessionResponse) :
    acquireStep clock req (cens, .returned res) = (cens, .returned res) := rfl

@[simp] theorem acquireStep_iterate_returned (res : Except String AcquireSessionResponse)
    (steps : Nat) :
    (acquireStep clock req)^[steps] (cens, .returned res) = (cens, .returned res) :=
  iterate_fixed (acquireStep_returned res) steps

def AcquireSessionRequest.restored (request : AcquireSessionRequest) (core : Core) :
    SessionState :=
  if request.cleanStart then { clientID := request.clientID }
  else ((core.dropExpired request.clientID request.nowUnixNano).sessions request.clientID).getD
    { clientID := request.clientID }

/-- The session in the center when the owner record is about to be taken over. -/
def AcquireSessionRequest.established (request : AcquireSessionRequest) (core : Core) :
    SessionState :=
  { request.restored core with
    clientID := request.clientID
    willMessage := request.willMessage
    sessionExpiryInterval := request.sessionExpiryInterval
    expireAtUnixNano := 0 }

def AcquireSessionRequest.openResponse (request : AcquireSessionRequest) (core : Core) :
    OpenSessionForConnectResponse where
  oldSession := (core.dropExpired request.clientID request.nowUnixNano).sessions request.clientID
  session := core.effectiveSession request.nowUnixNano request.opening

def AcquireSessionRequest.takeoverIndex (request : AcquireSessionRequest) : Nat :=
  if request.cleanStart then 2 else 1

theorem established_of_clean (hc : req.cleanStart = true) (core : Core) : req.established core =
      { clientID := req.clientID
        willMessage := req.willMessage
        sessionExpiryInterval := req.sessionExpiryInterval } := by
  simp [AcquireSessionRequest.established, AcquireSessionRequest.restored, hc]

theorem established_of_restart (hk : req.cleanStart = false) (core : Core) :
    req.established core = (req.openResponse core).session := by
  simp [AcquireSessionRequest.established, AcquireSessionRequest.restored, hk,
    AcquireSessionRequest.openResponse, Core.effectiveSession, AcquireSessionRequest.opening]

theorem acquireStep_called (hv : validateAcquireSessionRequest req = .ok ()) :
    acquireStep clock req (cens, .called) = ({ cens with
        sessions := (cens.sessions.dropExpired req.clientID req.nowUnixNano).setSession
          req.clientID (req.openResponse cens.sessions).session },
        .opened (req.openResponse cens.sessions)) := by
  obtain ⟨hn, ht⟩ := named_of_validateAcquire hv
  simp [acquireStep, hv, openSession, Core.openSessionForConnect, AcquireSessionRequest.opening,
    AcquireSessionRequest.openResponse, requestNowUnixNano, hn, ht]

theorem replaceSession_eq (hn : req.clientID ≠ "") (hc : req.cleanStart = true) (core : Core) :
    replaceSession req openResp cens = ({ cens with
        sessions := cens.sessions.setSession req.clientID (req.established core) },
        .replaced openResp) := by
  simp [replaceSession, Core.replaceSessionStateOnCleanStart, AcquireSessionRequest.opening, hn,
    established_of_clean hc]

theorem takeOverOwner_eq (hn : req.clientID ≠ "") : takeOverOwner req openResp cens =
      ({ cens with sessions := cens.sessions.setOwner req.clientID req.owner },
        .owned openResp (cens.sessions.owners req.clientID)) := by
  simp [takeOverOwner, Core.takeOverSessionOwner, AcquireSessionRequest.owner, hn]

/-! ## What the rest of a call leaves -/

theorem outcome_rest_opened_clean (hn : req.clientID ≠ "")
    (hc : req.cleanStart = true) (core : Core) :
    outcome req.clientID (acquireRest clock req (cens, .opened openResp)) =
      ⟨some (req.established core), some req.owner, some openResp⟩ := by
  have hs : acquireStep clock req (cens, .opened openResp) =
      replaceSession req openResp cens := by simp [acquireStep, hc]
  rw [acquireRest, iterate_succ_apply, hs, replaceSession_eq hn hc core]
  simp [iterate_succ_apply, acquireStep, takeOverOwner_eq hn, outcome]

/-- A whole call: the session is established, the owner record is the caller's, and the response
tells what was stored before. -/
theorem acquireRest_called (clock : Nat) (cens : Centers)
    (hv : validateAcquireSessionRequest req = .ok ()) :
    ∃ final previousOwner, acquireRest clock req (cens, .called) =
        (final, .returned (.ok ⟨req.openResponse cens.sessions, previousOwner⟩)) ∧
      final.sessions.sessions req.clientID = some (req.established cens.sessions) ∧
      final.sessions.owners req.clientID = some req.owner := by
  obtain ⟨hn, -⟩ := named_of_validateAcquire hv
  rw [acquireRest, iterate_succ_apply, acquireStep_called hv]
  cases hc : req.cleanStart with
  | true =>
    simp [iterate_succ_apply, acquireStep, hc,
      replaceSession_eq hn hc cens.sessions, takeOverOwner_eq hn]
  | false =>
    simp [iterate_succ_apply, acquireStep, hc, takeOverOwner_eq hn, established_of_restart hc]

theorem outcome_acquired (hv : validateAcquireSessionRequest req = .ok ()) :
    outcome req.clientID (acquireRest clock req (cens, .called)) =
      ⟨some (req.established cens.sessions), some req.owner,
        some (req.openResponse cens.sessions)⟩ := by
  obtain ⟨final, previousOwner, hr, hs, ho⟩ := acquireRest_called clock cens hv
  rw [hr, outcome, hs, ho]

/-- The state right before the takeover: the session is established, the owner record is still
the old one unless its session had expired. -/
theorem before_takeover (clock : Nat) (cens : Centers)
    (hv : validateAcquireSessionRequest req = .ok ()) :
    ∃ mid phase, (acquireStep clock req)^[req.takeoverIndex] (cens, .called) = (mid, phase) ∧
      mid.sessions.sessions req.clientID = some (req.established cens.sessions) ∧
      mid.sessions.owners req.clientID =
        (cens.sessions.dropExpired req.clientID req.nowUnixNano).owners req.clientID ∧
      ∀ others, acquireStep clock req (others, phase) =
        takeOverOwner req (req.openResponse cens.sessions) others := by
  obtain ⟨hn, -⟩ := named_of_validateAcquire hv
  cases hc : req.cleanStart with
  | true =>
    have hi : req.takeoverIndex = 2 := by simp [AcquireSessionRequest.takeoverIndex, hc]
    rw [hi, iterate_succ_apply, acquireStep_called hv]
    simp [acquireStep, hc, replaceSession_eq hn hc cens.sessions]
  | false =>
    have hi : req.takeoverIndex = 1 := by simp [AcquireSessionRequest.takeoverIndex, hc]
    rw [hi, iterate_one, acquireStep_called hv]
    simp [acquireStep, hc, established_of_restart hc]

theorem iterate_owned_sessions {previousOwner : Option SessionOwner} (steps : Nat) :
    ((acquireStep clock req)^[steps] (cens, .owned openResp previousOwner)).1.sessions =
      cens.sessions := by
  cases steps with
  | zero => rfl
  | succ steps =>
    rw [iterate_succ_apply]
    simp [acquireStep]

theorem owner_after_takeover {before : Nat} (hv : validateAcquireSessionRequest req = .ok ())
    (hl : req.takeoverIndex < before) :
    ((acquireStep clock req)^[before] (cens, .called)).1.sessions.owners req.clientID =
      some req.owner := by
  obtain ⟨hn, -⟩ := named_of_validateAcquire hv
  obtain ⟨mid, phase, hr, -, -, ht⟩ := before_takeover clock cens hv
  obtain ⟨more, rfl⟩ : ∃ more, before = more + (req.takeoverIndex + 1) :=
    ⟨before - (req.takeoverIndex + 1), by omega⟩
  rw [iterate_add_apply, iterate_succ_apply', hr, ht, takeOverOwner_eq hn, iterate_owned_sessions]
  exact Core.setOwner_owners_self _ _ _

end Steps

/-! ## The save -/

section Save

variable {clock : Nat} {request : AcquireSessionRequest} {save : SaveOfflineStateRequest}
  {cens : Centers}

theorem saveOfflineState_rejected (hr : save.validate ≠ .ok ()) :
    (saveOfflineState clock save cens).1 = cens := by
  unfold saveOfflineState
  split
  next => rfl
  next valid => exact absurd valid hr

theorem saveOfflineState_fenced {owner : SessionOwner}
    (hr : cens.sessions.owners save.clientID = some owner)
    (hf : owner.ownerToken ≠ save.ownerToken) :
    (saveOfflineState clock save cens).1 = cens := by
  unfold saveOfflineState
  split
  next => rfl
  next valid =>
    obtain ⟨hn, ht⟩ := named_of_validate valid
    have hs : cens.sessions.staleOwner save.clientID save.ownerToken = true := by
      simp [Core.staleOwner, hr, ht, hf]
    simp [Core.saveOfflineState, hs, hn]

/-- A save of the recorded owner, or without an owner record. -/
theorem saveOfflineState_sessions (hv : save.validate = .ok ())
    (ho : ∀ owner, cens.sessions.owners save.clientID = some owner →
      owner.ownerToken = save.ownerToken) :
    (saveOfflineState clock save cens).1.sessions.sessions save.clientID =
      if save.sessionExpiryInterval = 0 then none
      else some (cens.sessions.offlineSession clock save.offline) := by
  obtain ⟨hn, ht⟩ := named_of_validate hv
  have hc : cens.sessions.staleOwner save.clientID save.ownerToken = false := by
    cases hr : cens.sessions.owners save.clientID with
    | none => simp [Core.staleOwner, hr]
    | some owner => simp [Core.staleOwner, hr, ho owner hr]
  by_cases he : save.sessionExpiryInterval = 0
  · simp [saveOfflineState, hv, Core.saveOfflineState, hc, hn, he]
  · simp [saveOfflineState, hv, Core.saveOfflineState, hc, hn, he]

end Save

/-! ## Orders of the two calls -/

/-- The save is fenced off before the takeover: another owner is recorded and the session is not
dropped as expired. -/
def Fenced (request : AcquireSessionRequest) (save : SaveOfflineStateRequest) (core : Core) :
    Prop :=
  sessionExpired (core.sessions request.clientID) request.nowUnixNano = false ∧
    ∃ owner, core.owners request.clientID = some owner ∧ owner.ownerToken ≠ save.ownerToken

/-- The save writes what the restored session has: neither connection lets the session expire, no
Will is cleared, and messages and cursor are those stored. -/
structure Redundant (request : AcquireSessionRequest) (save : SaveOfflineStateRequest)
    (core : Core) : Prop where
  saved : save.sessionExpiryInterval = neverExpireSessionInterval
  opened : request.sessionExpiryInterval = neverExpireSessionInterval
  will : save.clearWill = true → request.willMessage = none
  cursor : save.outgoingReplayCursor = (request.restored core).outgoingReplayCursor
  messages : ∃ kept,
    (request.restored core).unfinishedMessages = kept ++ save.unfinishedMessages ∧
      ∀ message ∈ kept, message.isOutgoing = false ∧ ∀ saved ∈ save.unfinishedMessages,
        saved.isOutgoing = false → saved.packetID ≠ message.packetID

section Orders

variable {clock : Nat} {req : AcquireSessionRequest} {save : SaveOfflineStateRequest}
  {cens : Centers}

theorem deadline_eq_zero_iff (ival : Nat) {now : Int} (ht : 0 ≤ now) :
    sessionExpiryDeadlineUnixNano ival now = 0 ↔ ival = 0 ∨ ival = neverExpireSessionInterval := by
  unfold sessionExpiryDeadlineUnixNano
  split_ifs with hu
  · simp [hu]
  · simp only [hu, iff_false]
    omega

theorem requestNow_nonneg (clock : Nat) (now : Int) : 0 ≤ requestNowUnixNano clock now := by
  unfold requestNowUnixNano
  split_ifs <;> omega

variable {core : Core}

theorem offlineSession_eq_established_iff {mid : Core} (he : save.clientID = req.clientID)
    (hl : save.sessionExpiryInterval ≠ 0)
    (hs : mid.sessions req.clientID = some (req.established core)) :
    mid.offlineSession clock save.offline = req.established core ↔ Redundant req save core := by
  have hd := deadline_eq_zero_iff save.sessionExpiryInterval
    (requestNow_nonneg clock save.nowUnixNano)
  have hf : mid.offlineSession clock save.offline = req.established core ↔
      (if save.clearWill then none else req.willMessage) = req.willMessage ∧
        mergeOfflineUnfinishedMessages (req.restored core).unfinishedMessages
          save.unfinishedMessages = (req.restored core).unfinishedMessages ∧
        save.sessionExpiryInterval = req.sessionExpiryInterval ∧
        sessionExpiryDeadlineUnixNano save.sessionExpiryInterval
          (requestNowUnixNano clock save.nowUnixNano) = 0 ∧
        save.outgoingReplayCursor = (req.restored core).outgoingReplayCursor := by
    simp [Core.offlineSession, SaveOfflineStateRequest.offline, he, hs,
      AcquireSessionRequest.established]
  rw [hf, mergeOfflineUnfinishedMessages_eq_self_iff, hd]
  constructor
  · rintro ⟨will, hm, hi, ended | hu, cursor⟩
    · exact absurd ended hl
    · refine ⟨hu, hi ▸ hu, fun hc => ?_, cursor, hm⟩
      simpa [hc] using will.symm
  · intro hr
    refine ⟨?_, hr.messages, hr.saved.trans hr.opened.symm, .inr hr.saved, hr.cursor⟩
    split_ifs with hc
    · exact (hr.will hc).symm
    · rfl

theorem saveOfflineState_after_takeover {state : Centers} (he : save.clientID = req.clientID)
    (hf : save.ownerToken ≠ req.ownerToken)
    (ho : state.sessions.owners req.clientID = some req.owner) :
    (saveOfflineState clock save state).1 = state :=
  saveOfflineState_fenced (he ▸ ho) (Ne.symm hf)

theorem acquireThenSave_eq (he : save.clientID = req.clientID)
    (hf : save.ownerToken ≠ req.ownerToken)
    (hv : validateAcquireSessionRequest req = .ok ()) :
    acquireThenSave clock req save cens = acquireRest clock req (cens, .called) := by
  obtain ⟨final, previousOwner, hr, -, ho⟩ := acquireRest_called clock cens hv
  simp only [acquireThenSave, hr]
  rw [saveOfflineState_after_takeover he hf ho]

theorem interleaved_after_takeover {before : Nat} (he : save.clientID = req.clientID)
    (hf : save.ownerToken ≠ req.ownerToken)
    (hv : validateAcquireSessionRequest req = .ok ())
    (hl : req.takeoverIndex < before) :
    interleaved clock req save before cens = acquireThenSave clock req save cens := by
  obtain ⟨final, previousOwner, hr, -⟩ := acquireRest_called clock cens hv
  have hc : acquireRest clock req ((acquireStep clock req)^[before] (cens, .called)) =
        acquireRest clock req (cens, .called) := by
    rw [acquireRest, ← iterate_add_apply, Nat.add_comm, iterate_add_apply,
      ← acquireRest, hr, acquireStep_iterate_returned]
  rw [acquireThenSave_eq he hf hv, ← hc]
  simp only [interleaved]
  rw [saveOfflineState_after_takeover he hf (owner_after_takeover hv hl)]

theorem interleaved_refused {err : String} {before : Nat}
    (hr : validateAcquireSessionRequest req = .error err) :
    interleaved clock req save before cens = saveThenAcquire clock req save cens := by
  have hs (state : Centers) : acquireStep clock req (state, .called) =
      (state, .returned (.error err)) := by simp [acquireStep, hr]
  cases before with
  | zero => rfl
  | succ before =>
    simp only [interleaved, saveThenAcquire, acquireRest, iterate_succ_apply, hs,
      acquireStep_iterate_returned, acquireStep_returned]

/-- A save right before the takeover is as if it came at the end exactly when it keeps the
established session. -/
theorem outcome_interleaved_takeover (clock : Nat) (save : SaveOfflineStateRequest)
    (cens : Centers) (hv : validateAcquireSessionRequest req = .ok ()) :
    ∃ mid : Centers, outcome req.clientID (interleaved clock req save req.takeoverIndex cens) =
        ⟨(saveOfflineState clock save mid).1.sessions.sessions req.clientID,
          some req.owner, some (req.openResponse cens.sessions)⟩ ∧
      mid.sessions.sessions req.clientID = some (req.established cens.sessions) ∧
      mid.sessions.owners req.clientID =
        (cens.sessions.dropExpired req.clientID req.nowUnixNano).owners req.clientID := by
  obtain ⟨hn, -⟩ := named_of_validateAcquire hv
  obtain ⟨mid, phase, hr, hs, ho, ht⟩ := before_takeover clock cens hv
  refine ⟨mid, ?_, hs, ho⟩
  simp only [interleaved, hr]
  rw [acquireRest, iterate_succ_apply, ht, takeOverOwner_eq hn]
  simp [iterate_succ_apply, acquireStep, outcome]

theorem established_eq_of_openResponse {other : Core}
    (ht : req.openResponse core = req.openResponse other) :
    req.established core = req.established other := by
  cases hc : req.cleanStart with
  | true => rw [established_of_clean hc, established_of_clean hc]
  | false => rw [established_of_restart hc, established_of_restart hc, ht]

theorem fenced_iff : Fenced req save core ↔
      ∃ owner, (core.dropExpired req.clientID req.nowUnixNano).owners req.clientID =
        some owner ∧ owner.ownerToken ≠ save.ownerToken := by
  unfold Fenced Core.dropExpired
  cases sessionExpired (core.sessions req.clientID) req.nowUnixNano <;> simp

theorem saved_session_eq_iff (clock : Nat) {mid : Centers} (he : save.clientID = req.clientID)
    (sess : mid.sessions.sessions req.clientID = some (req.established core))
    (owner : mid.sessions.owners req.clientID =
      (core.dropExpired req.clientID req.nowUnixNano).owners req.clientID) :
    (saveOfflineState clock save mid).1.sessions.sessions req.clientID =
        some (req.established core) ↔
      save.validate ≠ .ok () ∨ Fenced req save core ∨ Redundant req save core := by
  rw [fenced_iff, ← owner]
  by_cases hv : save.validate = .ok ()
  · by_cases fenced : ∃ owner, mid.sessions.owners req.clientID = some owner ∧
        owner.ownerToken ≠ save.ownerToken
    · obtain ⟨o, hr, hf⟩ := id fenced
      rw [saveOfflineState_fenced (he ▸ hr) hf]
      simp [sess, fenced]
    · have ho : ∀ owner, mid.sessions.owners save.clientID = some owner →
          owner.ownerToken = save.ownerToken := by
        intro o hr
        by_contra hf
        exact fenced ⟨o, he ▸ hr, hf⟩
      have hs : (saveOfflineState clock save mid).1.sessions.sessions save.clientID = _ :=
        saveOfflineState_sessions hv ho
      rw [he] at hs
      rw [hs]
      simp only [hv, fenced, ne_eq, not_true, false_or]
      split_ifs with ended
      · refine iff_of_false (by simp) fun twice => ?_
        simp [twice.saved, neverExpireSessionInterval] at ended
      · rw [Option.some.injEq]
        exact offlineSession_eq_established_iff he ended sess
  · rw [saveOfflineState_rejected hv]
    simp [sess, hv]

/-- The two calls behave as in one of the two orders exactly when the save does not fall right
before the takeover, a call is refused, the save is fenced off, or it writes what is there. -/
theorem interleaved_serializable_iff (clock : Nat) (centers : Centers) (before : Nat)
    (same : save.clientID = req.clientID) (fresh : save.ownerToken ≠ req.ownerToken) :
    (outcome req.clientID (interleaved clock req save before centers) =
          outcome req.clientID (saveThenAcquire clock req save centers) ∨
        outcome req.clientID (interleaved clock req save before centers) =
          outcome req.clientID (acquireThenSave clock req save centers)) ↔
      (before = req.takeoverIndex →
        validateAcquireSessionRequest req ≠ .ok () ∨ save.validate ≠ .ok () ∨
          Fenced req save centers.sessions ∨ Redundant req save centers.sessions) := by
  cases hv : validateAcquireSessionRequest req with
  | error err =>
    refine iff_of_true (.inl ?_) fun _ => .inl (by simp)
    rw [interleaved_refused hv]
  | ok =>
    by_cases exposed : before = req.takeoverIndex
    · subst exposed
      obtain ⟨middle, hi, sess, ho⟩ := outcome_interleaved_takeover clock save centers hv
      rw [hi, saveThenAcquire, outcome_acquired hv,
        acquireThenSave_eq same fresh hv, outcome_acquired hv]
      have hk := saved_session_eq_iff clock same sess ho
      simp only [Outcome.mk.injEq, Option.some.injEq, true_and, and_true, ne_eq, not_true,
        false_or, true_implies]
      rw [← ne_eq, ← hk, or_iff_right_of_imp]
      rintro ⟨hs, ht⟩
      rw [hs, established_eq_of_openResponse ht]
    · refine iff_of_true ?_ fun same => absurd same exposed
      rcases lt_or_gt_of_ne exposed with he | hl
      · cases before with
        | zero => exact .inl rfl
        | succ before =>
          -- only a clean start has an operation between the first one and the takeover
          have hc : req.cleanStart = true := by
            by_contra hr
            simp [AcquireSessionRequest.takeoverIndex, hr] at he
          obtain rfl : before = 0 := by
            simp [AcquireSessionRequest.takeoverIndex, hc] at he
            omega
          right
          rw [acquireThenSave_eq same fresh hv, outcome_acquired hv]
          simp only [interleaved, zero_add, iterate_one, acquireStep_called hv]
          exact outcome_rest_opened_clean (named_of_validateAcquire hv).1 hc _
      · exact .inr (by rw [interleaved_after_takeover same fresh hv hl])

end Orders

/-! ### A connection that ends its session while another one takes it over -/

def heldCenters : Centers where
  sessions := (Core.empty.setSession "client"
    { clientID := "client", sessionExpiryInterval := neverExpireSessionInterval }).setOwner "client"
    { clientID := "client", nodeID := 1, ownerToken := "a", online := true }
  subscriptions := .empty

def newConnection : AcquireSessionRequest where
  brokerNodeID := 1
  clientID := "client"
  ownerToken := "b"
  sessionExpiryInterval := neverExpireSessionInterval
  cleanStart := false
  nowUnixNano := 1

def oldConnection (sessionExpiryInterval : Nat) : SaveOfflineStateRequest where
  brokerNodeID := 1
  clientID := "client"
  ownerToken := "a"
  clearWill := false
  sessionExpiryInterval := sessionExpiryInterval
  nowUnixNano := 1

/-- Both keep the session forever and nothing is unfinished: the save may fall anywhere. -/
theorem interleaved_serializable_unlimited :
    outcome "client" (interleaved 0 newConnection (oldConnection neverExpireSessionInterval) 1
          heldCenters) =
        outcome "client" (saveThenAcquire 0 newConnection
          (oldConnection neverExpireSessionInterval) heldCenters) ∨
      outcome "client" (interleaved 0 newConnection (oldConnection neverExpireSessionInterval) 1
          heldCenters) =
        outcome "client" (acquireThenSave 0 newConnection
          (oldConnection neverExpireSessionInterval) heldCenters) := by
  have he : (oldConnection neverExpireSessionInterval).clientID = newConnection.clientID := rfl
  have hf : (oldConnection neverExpireSessionInterval).ownerToken ≠ newConnection.ownerToken := by
    decide
  refine (interleaved_serializable_iff 0 heldCenters 1 he hf).mpr fun _ => ?_
  have hr : Redundant newConnection (oldConnection neverExpireSessionInterval)
      heldCenters.sessions :=
    { saved := rfl
      opened := rfl
      will := nofun
      cursor := rfl
      messages := ⟨[], rfl, nofun⟩ }
  exact .inr (.inr (.inr hr))

/-- The old connection ends its session between the open and the takeover of the new one, which is
then the recorded owner of no session. -/
theorem interleaved_not_serializable :
    (outcome "client" (interleaved 0 newConnection (oldConnection 0) 1 heldCenters)).session =
        none ∧
      (outcome "client" (interleaved 0 newConnection (oldConnection 0) 1 heldCenters)).owner =
        some newConnection.owner ∧
      (outcome "client"
        (saveThenAcquire 0 newConnection (oldConnection 0) heldCenters)).session ≠ none ∧
      (outcome "client"
        (acquireThenSave 0 newConnection (oldConnection 0) heldCenters)).session ≠ none := by
  decide

end SkyTree.StateRouter
