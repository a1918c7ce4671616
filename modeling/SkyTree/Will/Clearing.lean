import SkyTree.Will.Scanner

/-!
# Clearing a published Will

After a Will was routed, the broker reads the session of its sender and saves it again as
offline state without the Will. The save is the one a closing connection makes, so it also
writes what the request leaves out.
-/

namespace SkyTree.Will

open Session Core

/-- The clock readings of the two calls, and which of them fails. -/
structure ClearCalls where
  readClock : Int
  now : Int
  saveClock : Int
  readFails : Bool := false
  saveFails : Bool := false

def clearRequest (message : Message) (session : SessionState) (now : Int) :
    SaveOfflineStateRequest where
  clientID := message.sendClientID
  ownerToken := message.ownerToken
  unfinishedMessages := session.unfinishedMessages
  outgoingReplayCursor := none
  clearWill := true
  sessionExpiryInterval := session.sessionExpiryInterval
  nowUnixNano := now

def clearPublishedWillFromSession (core : Core) (message : Message) (calls : ClearCalls) : Core :=
  if message.sendClientID = "" ∨ calls.readFails = true then core
  else
    match core.getSession calls.readClock message.sendClientID 0 with
    | none => core
    | some session =>
      if session.willMessage = none ∨ calls.saveFails = true then core
      else
        match core.saveOfflineState calls.saveClock (clearRequest message session calls.now) with
        | .error _ => core
        | .ok next => next

def besidesWill (session : SessionState) :
    List UnfinishedMessage × Option OutgoingReplayCursor × Nat × Int :=
  (session.unfinishedMessages, session.outgoingReplayCursor, session.sessionExpiryInterval,
    session.expireAtUnixNano)

/-- Between the two states only the Will of the client's session differs. -/
structure OnlyWillChanges (core next : Core) (clientID : ClientID) : Prop where
  owners : next.owners = core.owners
  others : ∀ other, other ≠ clientID → next.sessions other = core.sessions other
  session : (next.sessions clientID).map besidesWill = (core.sessions clientID).map besidesWill

/-- The clear gets as far as saving `session`. -/
structure Clears (core : Core) (message : Message) (calls : ClearCalls) (session : SessionState) :
    Prop where
  named : message.sendClientID ≠ ""
  read : calls.readFails = false
  saved : calls.saveFails = false
  found : core.getSession calls.readClock message.sendClientID 0 = some session
  will : session.willMessage ≠ none
  owner : core.staleOwner message.sendClientID message.ownerToken = false

variable {core : Core} {msg : Message} {calls : ClearCalls} {sess : SessionState}

theorem OnlyWillChanges.refl (clientID : ClientID) : OnlyWillChanges core core clientID :=
  ⟨rfl, fun _ _ => rfl, rfl⟩

theorem clear_eq_self (hi : ∀ sess, ¬ Clears core msg calls sess) :
    clearPublishedWillFromSession core msg calls = core := by
  unfold clearPublishedWillFromSession
  split
  · rfl
  · rename_i called
    rw [not_or, Bool.not_eq_true] at called
    split
    · rfl
    · rename_i sess found
      split
      · rfl
      · rename_i kept
        rw [not_or, Bool.not_eq_true] at kept
        have hs : core.staleOwner msg.sendClientID msg.ownerToken = true := by
          by_contra ho
          exact hi sess ⟨called.1, called.2, kept.2, found, kept.1, by simpa using ho⟩
        unfold Core.saveOfflineState clearRequest
        rw [if_neg called.1, if_pos hs]

theorem merge_self (messages : List UnfinishedMessage) :
    mergeOfflineUnfinishedMessages messages messages = messages :=
  mergeOfflineUnfinishedMessages_eq_self_iff.mpr ⟨[], rfl, fun _ hm => absurd hm List.not_mem_nil⟩

theorem Clears.stored (hc : Clears core msg calls sess) :
    core.sessions msg.sendClientID = some sess :=
  (Option.filter_eq_some_iff.mp hc.found).1

theorem Clears.result (hc : Clears core msg calls sess) :
    clearPublishedWillFromSession core msg calls =
      if sess.sessionExpiryInterval = 0 then core.deleteSession msg.sendClientID
      else (core.setSession msg.sendClientID
        { clientID := msg.sendClientID
          willMessage := none
          unfinishedMessages := sess.unfinishedMessages
          sessionExpiryInterval := sess.sessionExpiryInterval
          expireAtUnixNano := sessionExpiryDeadlineUnixNano sess.sessionExpiryInterval
            (requestNowUnixNano calls.saveClock calls.now)
          outgoingReplayCursor := none }).markOffline msg.sendClientID := by
  unfold clearPublishedWillFromSession
  rw [if_neg (by simp [hc.named, hc.read]), hc.found]
  simp only [hc.will, hc.saved, Bool.false_eq_true, or_self, if_false]
  unfold Core.saveOfflineState clearRequest
  simp only [hc.named, hc.owner, Bool.false_eq_true, if_false]
  by_cases he : sess.sessionExpiryInterval = 0
  · rw [if_pos he, if_pos he]
  · rw [if_neg he, if_neg he]
    simp [Core.offlineSession, hc.stored, merge_self]

theorem markOffline_owners_eq_iff (clientID : ClientID) :
    (core.markOffline clientID).owners = core.owners ↔
      ∀ owner, core.owners clientID = some owner → owner.online = false := by
  unfold Core.markOffline
  cases hr : core.owners clientID with
  | none => simp
  | some owner =>
    have he : (core.setOwner clientID { owner with online := false }).owners = core.owners ↔
        some { owner with online := false } = core.owners clientID :=
      Function.update_eq_self_iff
    rw [he, hr]
    constructor
    · rintro ho _ ⟨⟩
      rw [← Option.some.inj ho]
    · intro ho
      rw [← ho owner rfl]

/-- A clear changes only the Will exactly when the session stays, had no replay cursor and
gets its deadline back, and its owner was offline. -/
theorem clear_changes_only_will_iff (core : Core) (message : Message) (calls : ClearCalls) :
    OnlyWillChanges core (clearPublishedWillFromSession core message calls) message.sendClientID ↔
      ∀ session, Clears core message calls session →
        session.sessionExpiryInterval ≠ 0 ∧ session.outgoingReplayCursor = none ∧
          session.expireAtUnixNano = sessionExpiryDeadlineUnixNano session.sessionExpiryInterval
            (requestNowUnixNano calls.saveClock calls.now) ∧
          ∀ owner, core.owners message.sendClientID = some owner → owner.online = false := by
  by_cases saves : ∃ session, Clears core message calls session
  · obtain ⟨session, clears⟩ := saves
    have only : ∀ other, Clears core message calls other → other = session := fun other again =>
      Option.some.inj (again.stored.symm.trans clears.stored)
    rw [clears.result]
    constructor
    · intro kept other again
      obtain rfl := only other again
      by_cases ends : other.sessionExpiryInterval = 0
      · have gone := kept.session
        rw [if_pos ends, clears.stored] at gone
        simp at gone
      · rw [if_neg ends] at kept
        have same := kept.session
        have offline := (markOffline_owners_eq_iff _).mp kept.owners
        rw [markOffline_sessions, setSession_sessions_self, clears.stored] at same
        simp only [Option.map_some, Option.some.injEq, besidesWill, Prod.mk.injEq] at same
        exact ⟨ends, same.2.1.symm, same.2.2.2.symm, offline⟩
    · intro met
      obtain ⟨stays, cursor, deadline, offline⟩ := met session clears
      rw [if_neg stays]
      refine ⟨(markOffline_owners_eq_iff _).mpr offline, fun other different => ?_, ?_⟩
      · rw [markOffline_sessions, setSession_sessions_of_ne _ _ _ _ different]
      · rw [markOffline_sessions, setSession_sessions_self, clears.stored]
        simp [besidesWill, cursor, deadline]
  · rw [not_exists] at saves
    rw [clear_eq_self saves]
    exact iff_of_true (.refl _) fun session clears => absurd clears (saves session)

def offlineWithCursor : Core :=
  (Core.empty.setSession "client"
    { clientID := "client"
      willMessage := some { topic := "status", payload := [], qos := 0 }
      sessionExpiryInterval := 60
      expireAtUnixNano := 70000000000
      outgoingReplayCursor := some { taskUnixMicro := 5, taskID := 1 } }).setOwner
    "client" { clientID := "client", nodeID := 1, ownerToken := "a", online := false }

/-- Clearing its Will at second 20 drops the cursor and moves the deadline to second 80. -/
theorem clear_drops_cursor : ¬ OnlyWillChanges offlineWithCursor
      (clearPublishedWillFromSession offlineWithCursor
        ⟨{ topic := "status", payload := [], qos := 0 }, "client", "a"⟩
        { readClock := 20000000000, now := 20000000000, saveClock := 20000000000 })
      "client" := by
  intro hk
  have he := hk.session
  revert he
  decide

end SkyTree.Will
