import SkyTree.Mqtt.Packet

/-!
# The session center

The in-memory session center keeps one session and one owner record per client
identifier. Each operation below runs under the center's lock, so it is one
atomic function of the two maps. `clock` is the wall clock the center falls back
to when a request carries no timestamp.
-/

namespace SkyTree.Session

open Mqtt List

/-- The check of the state router. -/
def validateClientOwnerRequest (clientID : ClientID) (ownerToken : OwnerToken)
    (brokerNodeID : Nat) : Except String Unit :=
  if clientID = "" then .error "client id is required"
  else if ownerToken = "" then .error "owner token is required"
  else if brokerNodeID = 0 then .error "broker node id is required"
  else .ok ()

def neverExpireSessionInterval : Nat := 2 ^ 32 - 1

structure WillMessage where
  topic : String
  payload : List UInt8
  qos : Nat
  retain : Bool := false
  contentType : Option String := none
  responseTopic : Option String := none
  correlationData : Option (List UInt8) := none
  messageExpiry : Option Nat := none
  userProperties : List (String × String) := []
  payloadFormat : Option Nat := none
  willDelayInterval : Option Nat := none
  deriving DecidableEq, Repr

inductive MessageState where
  | waitingPubAck
  | waitingPubRec
  | waitingPubComp
  | waitingPubRel
  deriving DecidableEq, Repr

/-- An unfinished QoS 1 or QoS 2 exchange. `publishPacket` is the encoded PUBLISH,
`none` standing for the empty byte string. -/
structure UnfinishedMessage where
  messageID : UUID
  packetID : PacketID
  qos : Nat
  state : MessageState
  isOutgoing : Bool
  firstPubTime : Int := 0
  publishPacket : Option Publish := none
  ackReasonCode : Nat := 0
  deriving DecidableEq, Repr

/-- The earliest QoS 1 task to replay after a reconnect. -/
structure OutgoingReplayCursor where
  taskUnixMicro : Nat
  taskID : UUID
  generation : Int := 0
  deriving DecidableEq, Repr

structure SessionState where
  clientID : ClientID
  willMessage : Option WillMessage := none
  unfinishedMessages : List UnfinishedMessage := []
  sessionExpiryInterval : Nat := 0
  expireAtUnixNano : Int := 0
  outgoingReplayCursor : Option OutgoingReplayCursor := none
  deriving DecidableEq, Repr

structure SessionOwner where
  clientID : ClientID
  nodeID : Nat
  ownerToken : OwnerToken
  online : Bool
  deriving DecidableEq, Repr

structure Core where
  sessions : ClientID → Option SessionState
  owners : ClientID → Option SessionOwner

namespace Core

def empty : Core := ⟨fun _ => none, fun _ => none⟩

def setSession (core : Core) (clientID : ClientID) (session : SessionState) : Core :=
  { core with sessions := Function.update core.sessions clientID (some session) }

def setOwner (core : Core) (clientID : ClientID) (owner : SessionOwner) : Core :=
  { core with owners := Function.update core.owners clientID (some owner) }

/-- `deleteSession` removes the session and its owner record, whoever asks. -/
def deleteSession (core : Core) (clientID : ClientID) : Core where
  sessions := Function.update core.sessions clientID none
  owners := Function.update core.owners clientID none

section Updates

variable (core : Core) (cid other : ClientID) (sess : SessionState) (owner : SessionOwner)

@[simp] theorem setSession_sessions_self : (core.setSession cid sess).sessions cid = some sess := by
  simp [setSession]

@[simp] theorem setSession_sessions_of_ne (hne : other ≠ cid) :
    (core.setSession cid sess).sessions other = core.sessions other := by
  simp [setSession, hne]

@[simp] theorem setSession_owners : (core.setSession cid sess).owners = core.owners := rfl

@[simp] theorem setOwner_owners_self : (core.setOwner cid owner).owners cid = some owner := by
  simp [setOwner]

@[simp] theorem setOwner_owners_of_ne (hne : other ≠ cid) :
    (core.setOwner cid owner).owners other = core.owners other := by
  simp [setOwner, hne]

@[simp] theorem setOwner_sessions : (core.setOwner cid owner).sessions = core.sessions := rfl

@[simp] theorem deleteSession_sessions_self : (core.deleteSession cid).sessions cid = none := by
  simp [deleteSession]

@[simp] theorem deleteSession_owners_self : (core.deleteSession cid).owners cid = none := by
  simp [deleteSession]

@[simp] theorem deleteSession_owners_of_ne (hne : other ≠ cid) :
    (core.deleteSession cid).owners other = core.owners other := by
  simp [deleteSession, hne]

theorem deleteSession_eq_self_iff : core.deleteSession cid = core ↔
      core.sessions cid = none ∧ core.owners cid = none := by
  constructor
  · intro he
    constructor
    · simpa using (congrFun (congrArg Core.sessions he) cid).symm
    · simpa using (congrFun (congrArg Core.owners he) cid).symm
  · rintro ⟨gone, free⟩
    obtain ⟨sessions, owners⟩ := core
    have sessEq : Function.update sessions cid none = sessions :=
      Function.update_eq_self_iff.mpr gone.symm
    have ownersEq : Function.update owners cid none = owners :=
      Function.update_eq_self_iff.mpr free.symm
    simp [deleteSession, sessEq, ownersEq]

end Updates

end Core

def requestNowUnixNano (clock now : Int) : Int := if now > 0 then now else clock

def sessionExpired (session : Option SessionState) (now : Int) : Bool :=
  match session with
  | none => false
  | some session => decide (session.expireAtUnixNano > 0 ∧ now ≥ session.expireAtUnixNano)

def sessionExpiryDeadlineUnixNano (interval : Nat) (now : Int) : Int :=
  if interval = 0 ∨ interval = neverExpireSessionInterval then 0
  else now + interval * 1000000000

/-- Offline messages replace every outgoing entry and the incoming entries with
their packet identifiers. -/
def mergeOfflineUnfinishedMessages (existing offline : List UnfinishedMessage) :
    List UnfinishedMessage :=
  existing.filter (fun message => !message.isOutgoing &&
    !(offline.any fun saved => !saved.isOutgoing && saved.packetID == message.packetID)) ++ offline

/-- A merge changes nothing exactly when the offline messages end the list and what stands before
them is incoming under other packet identifiers. -/
theorem mergeOfflineUnfinishedMessages_eq_self_iff {existing offline : List UnfinishedMessage} :
    mergeOfflineUnfinishedMessages existing offline = existing ↔
      ∃ kept, existing = kept ++ offline ∧ ∀ message ∈ kept, message.isOutgoing = false ∧
        ∀ saved ∈ offline, saved.isOutgoing = false → saved.packetID ≠ message.packetID := by
  unfold mergeOfflineUnfinishedMessages
  constructor
  · intro he
    refine ⟨_, he.symm, fun message hm => ?_⟩
    have ha := (mem_filter.mp hm).2
    simpa using ha
  · rintro ⟨kept, rfl, ho⟩
    rw [filter_append]
    -- an offline message is outgoing or replaces itself
    have hd : offline.filter (fun message => !message.isOutgoing &&
        !(offline.any fun saved =>
          !saved.isOutgoing && saved.packetID == message.packetID)) = [] := by
      rw [filter_eq_nil_iff]
      intro message hm
      simp only [Bool.and_eq_true, Bool.not_eq_true', any_eq_false, not_and, not_forall]
      exact fun hi => ⟨message, hm, by simp [hi]⟩
    rw [hd, append_nil, filter_eq_self.mpr]
    intro message hm
    simpa using ho message hm

def upsertIncomingUnfinishedMessage (messages : List UnfinishedMessage)
    (unfinished : UnfinishedMessage) : List UnfinishedMessage :=
  messages.filter (fun message =>
    !(!message.isOutgoing && message.packetID == unfinished.packetID)) ++ [unfinished]

structure OpenSessionForConnectRequest where
  clientID : ClientID
  willMessage : Option WillMessage
  sessionExpiryInterval : Nat
  nowUnixNano : Int

structure OpenSessionForConnectResponse where
  oldSession : Option SessionState
  session : SessionState
  deriving DecidableEq, Repr

structure SaveOfflineStateRequest where
  clientID : ClientID
  ownerToken : OwnerToken
  unfinishedMessages : List UnfinishedMessage
  outgoingReplayCursor : Option OutgoingReplayCursor
  clearWill : Bool
  willMessage : Option WillMessage := none
  sessionExpiryInterval : Nat
  nowUnixNano : Int

structure CommitOutgoingProgressRequest where
  clientID : ClientID
  ownerToken : OwnerToken
  unfinishedMessages : List UnfinishedMessage
  outgoingReplayCursor : Option OutgoingReplayCursor
  nowUnixNano : Int

structure UpsertIncomingUnfinishedRequest where
  clientID : ClientID
  ownerToken : OwnerToken
  packetID : PacketID
  unfinishedMessage : UnfinishedMessage
  nowUnixNano : Int

structure RemoveIncomingUnfinishedRequest where
  clientID : ClientID
  ownerToken : OwnerToken
  packetID : PacketID
  nowUnixNano : Int

structure RemoveOutgoingUnfinishedRequest where
  clientID : ClientID
  messageID : UUID
  nowUnixNano : Int

namespace Core

variable (core : Core)

def ownerTokenMatches (clientID : ClientID) (ownerToken : OwnerToken) : Bool :=
  ownerToken == "" ||
    match core.owners clientID with
    | none => true
    | some owner => owner.ownerToken == ownerToken

/-- A session past its deadline is dropped before it is looked at. -/
def dropExpired (clientID : ClientID) (now : Int) : Core :=
  if sessionExpired (core.sessions clientID) now then core.deleteSession clientID else core

def effectiveSession (now : Int) (request : OpenSessionForConnectRequest) :
    SessionState :=
  let base := ((core.dropExpired request.clientID now).sessions request.clientID).getD
    { clientID := request.clientID }
  { base with
    clientID := request.clientID
    willMessage := request.willMessage
    sessionExpiryInterval := request.sessionExpiryInterval
    expireAtUnixNano := 0 }

def openSessionForConnect (clock : Int) (request : OpenSessionForConnectRequest) :
    Except String (Core × OpenSessionForConnectResponse) :=
  if request.clientID = "" then .error "client id is required"
  else
    let now := requestNowUnixNano clock request.nowUnixNano
    let kept := core.dropExpired request.clientID now
    let effective := core.effectiveSession now request
    .ok (kept.setSession request.clientID effective,
      { oldSession := kept.sessions request.clientID, session := effective })

def takeOverSessionOwner (owner : SessionOwner) :
    Except String (Core × Option SessionOwner) :=
  if owner.clientID = "" then .error "client id is required"
  else .ok (core.setOwner owner.clientID owner, core.owners owner.clientID)

def replaceSessionStateOnCleanStart (request : OpenSessionForConnectRequest) :
    Except String Core :=
  if request.clientID = "" then .error "client id is required"
  else .ok (core.setSession request.clientID
    { clientID := request.clientID
      willMessage := request.willMessage
      sessionExpiryInterval := request.sessionExpiryInterval })

/-- A save by anyone but the recorded owner is ignored. -/
def staleOwner (clientID : ClientID) (ownerToken : OwnerToken) : Bool :=
  ownerToken != "" &&
    match core.owners clientID with
    | none => false
    | some owner => owner.ownerToken != ownerToken

def offlineSession (clock : Int) (request : SaveOfflineStateRequest) : SessionState :=
  let base := (core.sessions request.clientID).getD { clientID := request.clientID }
  { clientID := request.clientID
    willMessage :=
      if request.clearWill then none
      else match request.willMessage with
        | some will => some will
        | none => base.willMessage
    unfinishedMessages :=
      mergeOfflineUnfinishedMessages base.unfinishedMessages request.unfinishedMessages
    sessionExpiryInterval := request.sessionExpiryInterval
    expireAtUnixNano := sessionExpiryDeadlineUnixNano request.sessionExpiryInterval
      (requestNowUnixNano clock request.nowUnixNano)
    outgoingReplayCursor := request.outgoingReplayCursor }

/-- The owner record, if any, goes offline and keeps its token. -/
def markOffline (clientID : ClientID) : Core :=
  match core.owners clientID with
  | none => core
  | some owner => core.setOwner clientID { owner with online := false }

@[simp] theorem markOffline_sessions (cid : ClientID) :
    (core.markOffline cid).sessions = core.sessions := by
  unfold markOffline
  split <;> rfl

variable (clock : Int)

def saveOfflineState (request : SaveOfflineStateRequest) :
    Except String Core :=
  if request.clientID = "" then .error "client id is required"
  else if core.staleOwner request.clientID request.ownerToken then .ok core
  else if request.sessionExpiryInterval = 0 then .ok (core.deleteSession request.clientID)
  else .ok ((core.setSession request.clientID (core.offlineSession clock request)).markOffline
    request.clientID)

/-- Removal by message identifier is not fenced by an owner token. -/
def removeOutgoingUnfinished (request : RemoveOutgoingUnfinishedRequest) : Except String Core :=
  if request.clientID = "" then .error "client id is required"
  else
    let kept := core.dropExpired request.clientID (requestNowUnixNano clock request.nowUnixNano)
    match kept.sessions request.clientID with
    | none => .ok kept
    | some session => .ok (kept.setSession request.clientID
        { session with unfinishedMessages := session.unfinishedMessages.filter fun message =>
            !(message.isOutgoing && message.messageID == request.messageID) })

def commitOutgoingProgress (request : CommitOutgoingProgressRequest) :
    Except String Core :=
  if request.clientID = "" then .error "client id is required"
  else if !core.ownerTokenMatches request.clientID request.ownerToken then .ok core
  else
    let kept := core.dropExpired request.clientID (requestNowUnixNano clock request.nowUnixNano)
    match kept.sessions request.clientID with
    | none => .ok kept
    | some session => .ok (kept.setSession request.clientID
        { session with
          clientID := request.clientID
          unfinishedMessages := mergeOfflineUnfinishedMessages session.unfinishedMessages
            request.unfinishedMessages
          outgoingReplayCursor := request.outgoingReplayCursor })

def upsertIncomingUnfinished (request : UpsertIncomingUnfinishedRequest) : Except String Core :=
  if request.clientID = "" then .error "client id is required"
  else if request.packetID = 0 then .error "packet id is required"
  else if !core.ownerTokenMatches request.clientID request.ownerToken then .ok core
  else
    let kept := core.dropExpired request.clientID (requestNowUnixNano clock request.nowUnixNano)
    let session := (kept.sessions request.clientID).getD { clientID := request.clientID }
    let unfinished := { request.unfinishedMessage with
      packetID := request.packetID, qos := 2, state := .waitingPubRel, isOutgoing := false }
    .ok (kept.setSession request.clientID
      { session with
        clientID := request.clientID
        unfinishedMessages :=
          upsertIncomingUnfinishedMessage session.unfinishedMessages unfinished })

def removeIncomingUnfinished (request : RemoveIncomingUnfinishedRequest) : Except String Core :=
  if request.clientID = "" then .error "client id is required"
  else if request.packetID = 0 then .error "packet id is required"
  else if !core.ownerTokenMatches request.clientID request.ownerToken then .ok core
  else
    let kept := core.dropExpired request.clientID (requestNowUnixNano clock request.nowUnixNano)
    match kept.sessions request.clientID with
    | none => .ok kept
    | some session => .ok (kept.setSession request.clientID
        { session with unfinishedMessages := session.unfinishedMessages.filter fun message =>
            !(!message.isOutgoing && message.packetID == request.packetID) })

def editSession (clientID : ClientID) (now : Int)
    (change : SessionState → SessionState) : Core :=
  let kept := core.dropExpired clientID now
  match kept.sessions clientID with
  | none => kept
  | some session => kept.setSession clientID (change session)

theorem ok_editSession (cid : ClientID) (now : Int) (change : SessionState → SessionState) :
    (match (core.dropExpired cid now).sessions cid with
      | none => (.ok (core.dropExpired cid now) : Except String Core)
      | some sess => .ok ((core.dropExpired cid now).setSession cid (change sess))) =
      .ok (core.editSession cid now change) := by
  unfold editSession
  dsimp only
  split <;> rfl

/-- `GetSession` hides a session past its deadline. -/
def getSession (clock : Int) (clientID : ClientID) (now : Int) :
    Option SessionState :=
  (core.sessions clientID).filter fun session =>
    !sessionExpired (some session) (requestNowUnixNano clock now)

def getSessionOwner (clientID : ClientID) : Option SessionOwner :=
  core.owners clientID

/-- The periodic job drops every session past its deadline. -/
def deleteExpiredSessions (clock now : Int) : Core where
  sessions clientID := (core.dropExpired clientID (requestNowUnixNano clock now)).sessions clientID
  owners clientID := (core.dropExpired clientID (requestNowUnixNano clock now)).owners clientID

def Live (clientID : ClientID) : Prop :=
  ∀ session, core.sessions clientID = some session → session.expireAtUnixNano = 0

section Live

variable {core next : Core} {cid : ClientID}

theorem Live.dropExpired (hl : core.Live cid) (now : Int) : core.dropExpired cid now = core := by
  unfold Core.dropExpired sessionExpired
  cases hs : core.sessions cid with
  | none => simp
  | some sess => simp [hl sess hs]

theorem live_setSession (sess : SessionState) (ho : sess.expireAtUnixNano = 0) :
    (core.setSession cid sess).Live cid := by
  intro cur hs
  rw [setSession_sessions_self] at hs
  cases hs
  exact ho

structure KeepsOwner (core next : Core) (clientID : ClientID) : Prop where
  live : next.Live clientID
  owner : next.owners clientID = core.owners clientID

theorem KeepsOwner.of_eq (hl : core.Live cid) : KeepsOwner core core cid := ⟨hl, rfl⟩

theorem keepsOwner_setSession (sess : SessionState) (ho : sess.expireAtUnixNano = 0) :
    KeepsOwner core (core.setSession cid sess) cid :=
  ⟨live_setSession sess ho, rfl⟩

theorem keepsOwner_editSession (hl : core.Live cid) (now : Int)
    {change : SessionState → SessionState}
    (hc : ∀ sess, (change sess).expireAtUnixNano = sess.expireAtUnixNano) :
    KeepsOwner core (core.editSession cid now change) cid := by
  simp only [editSession, hl.dropExpired]
  cases hs : core.sessions cid with
  | none => exact .of_eq hl
  | some sess => exact keepsOwner_setSession _ ((hc sess).trans (hl sess hs))

variable (clock : Int)

theorem removeOutgoingUnfinished_keepsOwner (req : RemoveOutgoingUnfinishedRequest)
    (hl : core.Live req.clientID)
    (hd : core.removeOutgoingUnfinished clock req = .ok next) :
    KeepsOwner core next req.clientID := by
  simp only [removeOutgoingUnfinished, ok_editSession] at hd
  split_ifs at hd
  cases hd
  exact keepsOwner_editSession hl _ fun _ => rfl

theorem commitOutgoingProgress_keepsOwner (req : CommitOutgoingProgressRequest)
    (hl : core.Live req.clientID)
    (hd : core.commitOutgoingProgress clock req = .ok next) :
    KeepsOwner core next req.clientID := by
  simp only [commitOutgoingProgress, ok_editSession] at hd
  split_ifs at hd
  · cases hd
    exact .of_eq hl
  · cases hd
    exact keepsOwner_editSession hl _ fun _ => rfl

theorem upsertIncomingUnfinished_keepsOwner (req : UpsertIncomingUnfinishedRequest)
    (hl : core.Live req.clientID)
    (hd : core.upsertIncomingUnfinished clock req = .ok next) :
    KeepsOwner core next req.clientID := by
  unfold upsertIncomingUnfinished at hd
  split_ifs at hd
  · cases hd
    exact .of_eq hl
  · rw [hl.dropExpired] at hd
    cases hd
    apply keepsOwner_setSession
    cases hs : core.sessions req.clientID with
    | none => rfl
    | some sess => exact hl sess hs

theorem removeIncomingUnfinished_keepsOwner (req : RemoveIncomingUnfinishedRequest)
    (hl : core.Live req.clientID)
    (hd : core.removeIncomingUnfinished clock req = .ok next) :
    KeepsOwner core next req.clientID := by
  simp only [removeIncomingUnfinished, ok_editSession] at hd
  split_ifs at hd
  · cases hd
    exact .of_eq hl
  · cases hd
    exact keepsOwner_editSession hl _ fun _ => rfl

end Live

theorem saveOfflineState_ownerToken {core next : Core} {clock : Int}
    {req : SaveOfflineStateRequest} {owner : SessionOwner}
    (hk : req.sessionExpiryInterval ≠ 0)
    (hr : core.owners req.clientID = some owner)
    (hd : core.saveOfflineState clock req = .ok next) :
    ∃ cur, next.owners req.clientID = some cur ∧ cur.ownerToken = owner.ownerToken := by
  unfold saveOfflineState at hd
  split_ifs at hd
  · obtain rfl := Except.ok.inj hd
    exact ⟨owner, hr, rfl⟩
  · obtain rfl := Except.ok.inj hd
    refine ⟨{ owner with online := false }, ?_, rfl⟩
    simp [markOffline, setSession, hr]

end Core

end SkyTree.Session
