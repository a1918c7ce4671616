import SkyTree.Session.Center

/-!
# Saved incoming messages of a session

How each operation of the session center changes the incoming unfinished messages of
one client. Operations on outgoing progress leave them alone.
-/

namespace SkyTree.Session.Core

open List

def Incoming (core : Core) (clientID : ClientID) (message : UnfinishedMessage) : Prop :=
  ∃ session, core.sessions clientID = some session ∧ message ∈ session.unfinishedMessages ∧
    message.isOutgoing = false

variable {core next : Core} {cid : ClientID} {msg : UnfinishedMessage}

theorem incoming_of_sessions_eq (he : next.sessions cid = core.sessions cid) :
    next.Incoming cid msg ↔ core.Incoming cid msg := by
  unfold Incoming
  rw [he]

@[simp] theorem incoming_setSession {sess : SessionState} :
    (core.setSession cid sess).Incoming cid msg ↔
      msg ∈ sess.unfinishedMessages ∧ msg.isOutgoing = false := by
  simp [Incoming]

theorem not_incoming_of_none (none : core.sessions cid = none) : ¬ core.Incoming cid msg := by
  rintro ⟨sess, hs, -⟩
  rw [none] at hs
  cases hs

theorem incoming_of_stored {sess : SessionState} (hs : core.sessions cid = some sess) :
    core.Incoming cid msg ↔ msg ∈ sess.unfinishedMessages ∧ msg.isOutgoing = false := by
  constructor
  · rintro ⟨cur, hf, hm⟩
    rw [hs] at hf
    cases hf
    exact hm
  · exact fun hm => ⟨sess, hs, hm⟩

theorem incoming_getD : core.Incoming cid msg ↔
      msg ∈ ((core.sessions cid).getD { clientID := cid }).unfinishedMessages ∧
        msg.isOutgoing = false := by
  cases hs : core.sessions cid with
  | none => simp [not_incoming_of_none hs]
  | some sess => exact incoming_of_stored hs

def savedIncoming (request : UpsertIncomingUnfinishedRequest) : UnfinishedMessage :=
  { request.unfinishedMessage with
    packetID := request.packetID, qos := 2, state := .waitingPubRel, isOutgoing := false }

theorem mem_upsertIncomingUnfinishedMessage {messages : List UnfinishedMessage}
    {unfinished : UnfinishedMessage} :
    msg ∈ upsertIncomingUnfinishedMessage messages unfinished ↔ (msg ∈ messages ∧
        (msg.isOutgoing = true ∨ msg.packetID ≠ unfinished.packetID)) ∨
        msg = unfinished := by
  simp [upsertIncomingUnfinishedMessage]

theorem incoming_editSession (hl : core.Live cid) {now : Int}
    {change : SessionState → SessionState} {stays : Prop}
    (hc : ∀ session, (msg ∈ (change session).unfinishedMessages ∧ msg.isOutgoing = false) ↔
      (msg ∈ session.unfinishedMessages ∧ msg.isOutgoing = false) ∧ stays) :
    (core.editSession cid now change).Incoming cid msg ↔ core.Incoming cid msg ∧ stays := by
  simp only [editSession, hl.dropExpired]
  cases hs : core.sessions cid with
  | none => simp [not_incoming_of_none hs]
  | some sess => rw [incoming_setSession, hc, incoming_of_stored hs]

variable {clock : Int}

theorem upsertIncomingUnfinished_incoming {req : UpsertIncomingUnfinishedRequest}
    (hl : core.Live req.clientID)
    (ho : core.ownerTokenMatches req.clientID req.ownerToken = true)
    (hd : core.upsertIncomingUnfinished clock req = .ok next) :
    next.Incoming req.clientID msg ↔
      (core.Incoming req.clientID msg ∧ msg.packetID ≠ req.packetID) ∨ msg = savedIncoming req := by
  unfold upsertIncomingUnfinished at hd
  split at hd
  · cases hd
  · split at hd
    · cases hd
    · simp only [ho, Bool.not_true, Bool.false_eq_true, if_false, hl.dropExpired] at hd
      obtain rfl := Except.ok.inj hd
      rw [incoming_setSession, mem_upsertIncomingUnfinishedMessage, incoming_getD]
      constructor
      · rintro ⟨⟨hm, out | hne⟩ | rfl, hi⟩
        · rw [hi] at out
          cases out
        · exact .inl ⟨⟨hm, hi⟩, hne⟩
        · exact .inr rfl
      · rintro (⟨⟨hm, hi⟩, hne⟩ | rfl)
        · exact ⟨.inl ⟨hm, .inr hne⟩, hi⟩
        · exact ⟨.inr rfl, rfl⟩

theorem removeIncomingUnfinished_incoming {req : RemoveIncomingUnfinishedRequest}
    (hl : core.Live req.clientID)
    (ho : core.ownerTokenMatches req.clientID req.ownerToken = true)
    (hd : core.removeIncomingUnfinished clock req = .ok next) :
    next.Incoming req.clientID msg ↔
      core.Incoming req.clientID msg ∧ msg.packetID ≠ req.packetID := by
  simp only [removeIncomingUnfinished, ok_editSession, ho, Bool.not_true, Bool.false_eq_true,
    if_false] at hd
  split_ifs at hd
  cases hd
  refine incoming_editSession hl fun session => ?_
  simp only [mem_filter, Bool.not_eq_true', Bool.and_eq_false_iff, Bool.not_eq_false',
    beq_eq_false_iff_ne]
  constructor
  · rintro ⟨⟨hm, out | hne⟩, hi⟩
    · rw [hi] at out
      cases out
    · exact ⟨⟨hm, hi⟩, hne⟩
  · rintro ⟨⟨hm, hi⟩, hne⟩
    exact ⟨⟨hm, .inr hne⟩, hi⟩

theorem mem_mergeOffline {existing offline : List UnfinishedMessage}
    (ho : ∀ saved ∈ offline, saved.isOutgoing = true) :
    (msg ∈ mergeOfflineUnfinishedMessages existing offline ∧ msg.isOutgoing = false) ↔
      msg ∈ existing ∧ msg.isOutgoing = false := by
  simp only [mergeOfflineUnfinishedMessages, mem_append, mem_filter, Bool.and_eq_true,
    Bool.not_eq_true']
  constructor
  · rintro ⟨⟨hm, -⟩ | saved, hi⟩
    · exact ⟨hm, hi⟩
    · rw [ho msg saved] at hi
      cases hi
  · rintro ⟨hm, hi⟩
    refine ⟨.inl ⟨hm, hi, ?_⟩, hi⟩
    rw [any_eq_false]
    intro saved mem
    simp [ho saved mem]

theorem saveOfflineState_incoming {req : SaveOfflineStateRequest}
    (ho : core.ownerTokenMatches req.clientID req.ownerToken = true)
    (out : ∀ saved ∈ req.unfinishedMessages, saved.isOutgoing = true)
    (hd : core.saveOfflineState clock req = .ok next) :
    next.Incoming req.clientID msg ↔
      req.sessionExpiryInterval ≠ 0 ∧ core.Incoming req.clientID msg := by
  have hf : core.staleOwner req.clientID req.ownerToken = false := by
    unfold ownerTokenMatches at ho
    unfold staleOwner
    cases hr : core.owners req.clientID with
    | none => simp
    | some owner =>
      simp only [hr, Bool.or_eq_true, beq_iff_eq] at ho
      rcases ho with empty | he
      · simp [empty]
      · simp [he]
  unfold saveOfflineState at hd
  split at hd
  · cases hd
  · simp only [hf, Bool.false_eq_true, if_false] at hd
    split at hd
    · next zero =>
        obtain rfl := Except.ok.inj hd
        simp [zero, not_incoming_of_none]
    · next positive =>
        obtain rfl := Except.ok.inj hd
        rw [incoming_of_sessions_eq (congrFun (markOffline_sessions _ _) _), incoming_setSession,
          incoming_getD]
        simp only [positive, ne_eq, not_false_eq_true, true_and]
        exact mem_mergeOffline out

theorem commitOutgoingProgress_incoming {req : CommitOutgoingProgressRequest}
    (hl : core.Live req.clientID)
    (ho : ∀ saved ∈ req.unfinishedMessages, saved.isOutgoing = true)
    (hd : core.commitOutgoingProgress clock req = .ok next) :
    next.Incoming req.clientID msg ↔ core.Incoming req.clientID msg := by
  simp only [commitOutgoingProgress, ok_editSession] at hd
  split_ifs at hd
  · cases hd
    rfl
  · cases hd
    refine (incoming_editSession hl fun session => ?_).trans (and_iff_left trivial)
    exact (mem_mergeOffline ho).trans (and_iff_left trivial).symm

theorem removeOutgoingUnfinished_incoming {req : RemoveOutgoingUnfinishedRequest}
    (hl : core.Live req.clientID)
    (hd : core.removeOutgoingUnfinished clock req = .ok next) :
    next.Incoming req.clientID msg ↔ core.Incoming req.clientID msg := by
  simp only [removeOutgoingUnfinished, ok_editSession] at hd
  split_ifs at hd
  cases hd
  refine (incoming_editSession hl fun session => ?_).trans (and_iff_left trivial)
  rw [mem_filter, and_true]
  constructor
  · rintro ⟨⟨hm, -⟩, hi⟩
    exact ⟨hm, hi⟩
  · rintro ⟨hm, hi⟩
    exact ⟨⟨hm, by simp [hi]⟩, hi⟩

variable {req : OpenSessionForConnectRequest} {response : OpenSessionForConnectResponse}

theorem openSessionForConnect_incoming (msg : UnfinishedMessage)
    (hd : core.openSessionForConnect clock req = .ok (next, response)) :
    (msg ∈ response.session.unfinishedMessages ∧ msg.isOutgoing = false ↔
        next.Incoming req.clientID msg) ∧
      (next.Incoming req.clientID msg →
        core.Incoming req.clientID msg ∧ response.oldSession.isSome = true) ∧
      (response.oldSession.isSome = true → core.Incoming req.clientID msg →
        next.Incoming req.clientID msg) := by
  unfold openSessionForConnect at hd
  split_ifs at hd
  obtain ⟨rfl, rfl⟩ := Prod.mk.inj (Except.ok.inj hd)
  rw [incoming_setSession]
  refine ⟨Iff.rfl, ?_⟩
  unfold effectiveSession dropExpired
  split
  · simp
  · constructor
    · rintro ⟨hm, hi⟩
      refine ⟨incoming_getD.mpr ⟨hm, hi⟩, ?_⟩
      cases hs : core.sessions req.clientID with
      | none => simp [hs] at hm
      | some sess => rfl
    · exact fun _ hi => incoming_getD.mp hi

theorem openSessionForConnect_live
    (hd : core.openSessionForConnect clock req = .ok (next, response)) :
    next.Live req.clientID := by
  unfold openSessionForConnect at hd
  split_ifs at hd
  obtain ⟨rfl, -⟩ := Prod.mk.inj (Except.ok.inj hd)
  exact live_setSession _ rfl

end SkyTree.Session.Core
