import SkyTree.Session.Center
import SkyTree.Will.DelayCenter

/-!
# Executing a due task

The scanner checks the owner of a due task, reads the Will from the session and hands it to
the publisher. Each call can fail, and each outcome either keeps the task for the next scan
or deletes it. The session center hides a session past its deadline, so that its Will looks
absent although it is stored.
-/

namespace SkyTree.Will

open Mqtt Session

structure Message where
  publish : Publish
  sendClientID : ClientID
  ownerToken : OwnerToken
  deriving DecidableEq, Repr

def protoToWillProperties (will : WillMessage) : PublishProperties where
  payloadFormat := will.payloadFormat.map (· % 256)
  messageExpiry := will.messageExpiry
  contentType := will.contentType.getD ""
  responseTopic := will.responseTopic.getD ""
  correlationData := will.correlationData.getD []
  user := will.userProperties

def willPublish (will : WillMessage) : Publish where
  topic := will.topic
  payload := will.payload
  qos := will.qos % 256
  retain := will.retain
  properties := protoToWillProperties will

/-- What the calls of one execution return; `accepted` tells whether the channel took the
message before the context ended. -/
structure TaskCalls where
  ownerRead : Except Unit (Option SessionOwner)
  sessionRead : Except Unit (Option SessionState)
  accepted : Bool

def willDelayTaskOwnerStillValid (ownerRead : Except Unit (Option SessionOwner))
    (task : WillDelayTask) : Bool :=
  task.ownerToken == "" ||
    match ownerRead with
    | .error _ => false
    | .ok none => true
    | .ok (some owner) => owner.ownerToken == task.ownerToken && !owner.online

structure Execution where
  handed : Option Message := none
  deletes : Bool := false
  deriving DecidableEq, Repr

def taskMessage (task : WillDelayTask) (will : WillMessage) : Message where
  publish := willPublish will
  sendClientID := task.clientID
  ownerToken := task.ownerToken

def executeTask (calls : TaskCalls) (task : WillDelayTask) : Execution :=
  if task.clientID = "" then {}
  else if !willDelayTaskOwnerStillValid calls.ownerRead task then { deletes := true }
  else
    match calls.sessionRead with
    | .error _ => {}
    | .ok none => { deletes := true }
    | .ok (some session) =>
      match session.willMessage with
      | none => { deletes := true }
      | some will =>
        if calls.accepted then { handed := some (taskMessage task will), deletes := true }
        else {}

/-! ## Deletions and their reasons -/

/-- The state the two reads find, and which calls fail. Other calls can run between the
reads, so each has a state of its own. -/
structure TaskEnvironment where
  atOwnerRead : Core
  atSessionRead : Core
  clock : Int
  ownerReadFails : Bool
  sessionReadFails : Bool
  publishFails : Bool

namespace TaskEnvironment

variable (environment : TaskEnvironment) (task : WillDelayTask)

def calls : TaskCalls where
  ownerRead :=
    if environment.ownerReadFails then .error ()
    else .ok (environment.atOwnerRead.getSessionOwner task.clientID)
  sessionRead :=
    if environment.sessionReadFails then .error ()
    else .ok (environment.atSessionRead.getSession environment.clock task.clientID 0)
  accepted := !environment.publishFails

def execute : Execution := executeTask (environment.calls task) task

/-- Another connection took the client identifier over. -/
def Superseded : Prop :=
  ∃ owner, environment.atOwnerRead.getSessionOwner task.clientID = some owner ∧
    owner.ownerToken ≠ task.ownerToken

def OnlineAgain : Prop :=
  ∃ owner, environment.atOwnerRead.getSessionOwner task.clientID = some owner ∧
    owner.online = true

/-- No session is stored, or one without a Will. -/
def WillAbsent : Prop :=
  ∀ session, environment.atSessionRead.sessions task.clientID = some session →
    session.willMessage = none

/-- A Will is stored in a session past its deadline. -/
def WillExpired : Prop :=
  ∃ session, environment.atSessionRead.sessions task.clientID = some session ∧
    session.willMessage ≠ none ∧
    sessionExpired (some session) (requestNowUnixNano environment.clock 0) = true

def OwnerChecked : Prop :=
  task.clientID ≠ "" ∧
    willDelayTaskOwnerStillValid (environment.calls task).ownerRead task = true

/-- The owner read is made and fails. -/
def OwnerReadFailed : Prop :=
  task.clientID ≠ "" ∧ task.ownerToken ≠ "" ∧ environment.ownerReadFails = true

/-- The owner check passes, and the session read fails. -/
def SessionReadFailed : Prop :=
  environment.OwnerChecked task ∧ environment.sessionReadFails = true

/-- A Will is read and cannot be handed over. -/
def PublishFailed : Prop :=
  environment.OwnerChecked task ∧ environment.sessionReadFails = false ∧
    (∃ session, environment.atSessionRead.getSession environment.clock task.clientID 0 =
      some session ∧ session.willMessage ≠ none) ∧
    environment.publishFails = true

/-- The owner check passes, and the session read does not find a Will that is stored. -/
def WillHidden : Prop :=
  environment.OwnerChecked task ∧ environment.sessionReadFails = false ∧
    environment.WillExpired task

/-- A deletion has a reason, and a failed call is none. -/
structure DeletesSoundly : Prop where
  justified : (environment.execute task).deletes = true →
    (environment.execute task).handed ≠ none ∨ environment.Superseded task ∨
      environment.OnlineAgain task ∨ environment.WillAbsent task
  failed : environment.OwnerReadFailed task ∨ environment.SessionReadFailed task ∨
      environment.PublishFailed task → (environment.execute task).deletes = false

variable {environment task}

theorem superseded_or_online_of_invalid (read : environment.ownerReadFails = false)
    (invalid : willDelayTaskOwnerStillValid (environment.calls task).ownerRead task = false) :
    environment.Superseded task ∨ environment.OnlineAgain task := by
  unfold willDelayTaskOwnerStillValid calls at invalid
  rw [read] at invalid
  cases found : environment.atOwnerRead.getSessionOwner task.clientID with
  | none => simp [found] at invalid
  | some owner =>
    simp [found] at invalid
    by_cases same : owner.ownerToken = task.ownerToken
    · exact .inr ⟨owner, found, invalid.2 same⟩
    · exact .inl ⟨owner, found, same⟩

theorem not_deletes_of_sessionReadFailed (failed : environment.SessionReadFailed task) :
    (environment.execute task).deletes = false := by
  obtain ⟨⟨named, valid⟩, fails⟩ := failed
  unfold execute executeTask
  rw [if_neg named, valid]
  simp [calls, fails]

theorem not_deletes_of_publishFailed (failed : environment.PublishFailed task) :
    (environment.execute task).deletes = false := by
  obtain ⟨⟨named, valid⟩, read, ⟨session, found, will⟩, fails⟩ := failed
  obtain ⟨message, stored⟩ := Option.ne_none_iff_exists'.mp will
  unfold execute executeTask
  rw [if_neg named, valid]
  simp [calls, read, found, stored, fails]

/-- Once the owner check passed, a task is deleted with its Will handed over, without a stored
Will, or with one that the read hides. -/
theorem reason_of_deletes (checked : environment.OwnerChecked task)
    (deletes : (environment.execute task).deletes = true) :
    (environment.execute task).handed ≠ none ∨ environment.WillAbsent task ∨
      environment.WillHidden task := by
  obtain ⟨named, valid⟩ := checked
  cases read : environment.sessionReadFails with
  | true =>
    rw [not_deletes_of_sessionReadFailed ⟨⟨named, valid⟩, read⟩] at deletes
    cases deletes
  | false =>
    cases stored : environment.atSessionRead.sessions task.clientID with
    | none => exact .inr (.inl fun session found => by simp [stored] at found)
    | some session =>
      by_cases absent : session.willMessage = none
      · refine .inr (.inl fun other found => ?_)
        cases stored.symm.trans found
        exact absent
      cases expired : sessionExpired (some session) (requestNowUnixNano environment.clock 0) with
      | true => exact .inr (.inr ⟨⟨named, valid⟩, read, session, stored, absent, expired⟩)
      | false =>
        have found : environment.atSessionRead.getSession environment.clock task.clientID 0 =
            some session := by simp [Core.getSession, stored, expired]
        cases fails : environment.publishFails with
        | true =>
          rw [not_deletes_of_publishFailed
            ⟨⟨named, valid⟩, read, ⟨session, found, absent⟩, fails⟩] at deletes
          cases deletes
        | false =>
          obtain ⟨message, will⟩ := Option.ne_none_iff_exists'.mp absent
          left
          unfold execute executeTask
          rw [if_neg named, valid]
          simp [calls, read, found, will, fails]

theorem execute_of_willHidden (hidden : environment.WillHidden task) :
    environment.execute task = { deletes := true } := by
  obtain ⟨⟨named, valid⟩, read, session, stored, -, expired⟩ := hidden
  have found : environment.atSessionRead.getSession environment.clock task.clientID 0 = none := by
    simp [Core.getSession, stored, expired]
  unfold execute executeTask
  rw [if_neg named, valid]
  simp [calls, read, found]

end TaskEnvironment

open TaskEnvironment in
/-- Deletions are sound exactly when no owner read fails and no Will is hidden while its task is
still the owner's: either deletes the task. -/
theorem deletesSoundly_iff (environment : TaskEnvironment) (task : WillDelayTask) :
    environment.DeletesSoundly task ↔
      ¬ environment.OwnerReadFailed task ∧
        (environment.WillHidden task →
          environment.Superseded task ∨ environment.OnlineAgain task) := by
  constructor
  · intro sound
    constructor
    · intro failed
      have kept := sound.failed (.inl failed)
      unfold execute executeTask at kept
      obtain ⟨named, token, fails⟩ := failed
      simp [named, willDelayTaskOwnerStillValid, calls, token, fails] at kept
    · intro hidden
      have executed := execute_of_willHidden hidden
      obtain ⟨-, -, session, stored, will, -⟩ := hidden
      rcases sound.justified (by rw [executed]) with handed | superseded | online | absent
      · rw [executed] at handed
        exact absurd rfl handed
      · exact .inl superseded
      · exact .inr online
      · exact absurd (absent session stored) will
  · rintro ⟨ownerRead, hidden⟩
    refine ⟨fun deletes => ?_, ?_⟩
    · by_cases named : task.clientID = ""
      · simp [execute, executeTask, named] at deletes
      cases valid : willDelayTaskOwnerStillValid (environment.calls task).ownerRead task with
      | true =>
        rcases reason_of_deletes ⟨named, valid⟩ deletes with handed | absent | expired
        · exact .inl handed
        · exact .inr (.inr (.inr absent))
        · exact .inr ((hidden expired).imp_right .inl)
      | false =>
        have token : task.ownerToken ≠ "" := by
          intro blank
          simp [willDelayTaskOwnerStillValid, blank] at valid
        have read : environment.ownerReadFails = false := by
          by_contra fails
          exact ownerRead ⟨named, token, by simpa using fails⟩
        exact .inr ((superseded_or_online_of_invalid read valid).imp_right .inl)
    · rintro (failed | failed | failed)
      · exact absurd failed ownerRead
      · exact not_deletes_of_sessionReadFailed failed
      · exact not_deletes_of_publishFailed failed

/-- An offline owner with a Will that is due, in a session with the given deadline. -/
def dueWill (expireAtUnixNano : Int) (ownerReadFails : Bool) : TaskEnvironment :=
  let will := { topic := "status", payload := [], qos := 0 }
  let session :=
    { clientID := "client", willMessage := some will, expireAtUnixNano := expireAtUnixNano }
  let core := (Core.empty.setSession "client" session).setOwner "client"
    { clientID := "client", nodeID := 1, ownerToken := "a", online := false }
  { atOwnerRead := core, atSessionRead := core, clock := 5, ownerReadFails := ownerReadFails,
    sessionReadFails := false, publishFails := false }

/-- A failed owner read deletes the task, and so does a session that has just ended: the Will is
stored and never handed over. -/
theorem stored_will_lost : ¬ (dueWill 0 true).DeletesSoundly ⟨"client", 0, "a"⟩ ∧
    ¬ (dueWill 4 false).DeletesSoundly ⟨"client", 0, "a"⟩ := by
  constructor
  · intro sound
    have kept := sound.failed (.inl ⟨by decide, by decide, rfl⟩)
    revert kept
    decide
  · intro sound
    rcases sound.justified (by decide) with handed | ⟨owner, found, differs⟩ |
      ⟨owner, found, online⟩ | absent
    · exact handed (by decide)
    · cases found
      exact differs rfl
    · cases found
      cases online
    · cases absent _ rfl

end SkyTree.Will
