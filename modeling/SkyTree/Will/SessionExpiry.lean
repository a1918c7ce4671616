import SkyTree.Will.Close

/-!
# A Will that is due when its session ends

The task is scheduled for the moment the session expires, and the scanner reads the Will
from the session when the task is due. The session's deadline is computed from an earlier
reading of the clock, and a session past its deadline is hidden, so the scan has to fall
between two readings of almost the same moment.
-/

namespace SkyTree.Will

open Foundation Mqtt Session Client List

/-! ## Scans -/

structure Scan where
  currentTime : Int
  sessionClock : WillDelayTask → Int

namespace WillBroker

def taskCalls (state : WillBroker) (scan : Scan) (task : WillDelayTask) : TaskCalls where
  ownerRead := .ok (state.broker.sessions.getSessionOwner task.clientID)
  sessionRead := .ok (state.broker.sessions.getSession (scan.sessionClock task) task.clientID 0)
  accepted := true

/-- One due task: the deletion goes by owner, since every stored task has an owner token. -/
def execute (scan : Scan) (state : WillBroker) (task : WillDelayTask) :
    WillBroker × Option Message :=
  let execution := executeTask (state.taskCalls scan task) task
  (if execution.deletes then
      { state with center := state.center.deleteTaskByOwner task.clientID task.ownerToken }
    else state, execution.handed)

def executeAll (scan : Scan) (state : WillBroker) : List WillDelayTask → WillBroker × List Message
  | [] => (state, [])
  | task :: rest =>
    let result := execute scan state task
    let later := executeAll scan result.1 rest
    (later.1, result.2.toList ++ later.2)

def scanAndExecute (state : WillBroker) (scan : Scan) : WillBroker × List Message :=
  executeAll scan state (state.center.getDueTasks scan.currentTime)

@[simp] theorem execute_broker (scan : Scan) (state : WillBroker) (task : WillDelayTask) :
    (execute scan state task).1.broker = state.broker := by
  unfold execute
  dsimp only
  split <;> rfl

theorem executeAll_broker (scan : Scan) (state : WillBroker) (tasks : List WillDelayTask) :
    (executeAll scan state tasks).1.broker = state.broker := by
  induction tasks generalizing state with
  | nil => rfl
  | cons task rest ih =>
    exact (ih _).trans (execute_broker scan state task)

theorem executeAll_handed (scan : Scan) (state : WillBroker) (tasks : List WillDelayTask) :
    (executeAll scan state tasks).2 =
      tasks.filterMap fun task => (executeTask (state.taskCalls scan task) task).handed := by
  induction tasks generalizing state with
  | nil => rfl
  | cons task rest ih =>
    have callsEq : ∀ other, (execute scan state task).1.taskCalls scan other =
        state.taskCalls scan other := fun other => by simp [taskCalls]
    have hl := ih (execute scan state task).1
    simp only [callsEq] at hl
    change (execute scan state task).2.toList ++
      (executeAll scan (execute scan state task).1 rest).2 = _
    rw [hl]
    cases hh : (executeTask (state.taskCalls scan task) task).handed with
    | none => simp [execute, hh]
    | some message => simp [execute, hh]

theorem mem_executeAll {scan : Scan} {state : WillBroker} {tasks : List WillDelayTask}
    {task : WillDelayTask} (hs : task ∈ state.center) (hd : tasks.Nodup)
    (hl : ∀ other ∈ tasks, other ∈ state.center) (spared : task ∉ tasks) :
    task ∈ (executeAll scan state tasks).1.center := by
  induction tasks generalizing state with
  | nil => exact hs
  | cons other rest ih =>
    obtain ⟨hne, away⟩ := not_or.mp (mt mem_cons.mpr spared)
    have hk : ∀ member, member ∈ state.center → member ≠ other →
        member ∈ (execute scan state other).1.center := by
      intro member hi hu
      unfold execute
      dsimp only
      split
      · exact (DelayCenter.mem_deleteTaskByOwner (hl other mem_cons_self)).mpr ⟨hi, hu⟩
      · exact hi
    rw [nodup_cons] at hd
    refine ih (hk task hs hne) hd.2 ?_ away
    intro member hi
    exact hk member (hl member (mem_cons_of_mem _ hi)) fun he => hd.1 (he ▸ hi)

end WillBroker

/-! ## Between the close and the scan -/

/-- What can happen before the first scan that finds the task: scans that come too early, the
periodic job that deletes expired sessions, and the connection's own expiry timer. -/
inductive Event where
  | scan (scan : Scan)
  | deleteExpiredSessions (clock now : Int)
  | expiryTimer

def WillBroker.after (client : ClosingClient) (state : WillBroker) : Event → WillBroker
  | .scan scan => (state.scanAndExecute scan).1
  | .deleteExpiredSessions clock now =>
    { state with broker := { state.broker with
        sessions := state.broker.sessions.deleteExpiredSessions clock now } }
  | .expiryTimer =>
    { state with broker := state.broker.sessionExpiryCleanup client.connection false }

structure DueAtExpiry (state : WillBroker) (client : ClosingClient) (snapshot : OfflineSnapshot)
    (session : SessionState) (will : WillMessage) : Prop where
  named : client.connection.id ≠ ""
  tokened : client.connection.ownerToken ≠ ""
  node : snapshot.localNodeID ≠ 0
  content : willPublishOnClose client ≠ none
  positive : 0 < client.connection.sessionExpiryInterval
  finite : client.connection.sessionExpiryInterval ≠ neverExpireSessionInterval
  late : client.connection.sessionExpiryInterval ≤ client.willDelay
  stored : state.broker.sessions.sessions client.connection.id = some session
  carries : session.willMessage = some will
  owned : ∃ owner, state.broker.sessions.owners client.connection.id = some owner ∧
    owner.ownerToken = client.connection.ownerToken

def closeDeadline (client : ClosingClient) (snapshot : OfflineSnapshot) : Int :=
  snapshot.now + client.connection.sessionExpiryInterval * 1000000000

/-- A reading of the clock at which a session with this deadline is gone. -/
def Passed (deadline now : Int) : Prop := 0 < deadline ∧ deadline ≤ now

instance (deadline now : Int) : Decidable (Passed deadline now) :=
  inferInstanceAs (Decidable (_ ∧ _))

def Event.Spares (deadline : Int) : Event → Prop
  | .scan _ => True
  | .deleteExpiredSessions clock now => ¬ Passed deadline (requestNowUnixNano clock now)
  | .expiryTimer => False

/-- The task is stored, and the session is there with its deadline and Will, its owner
offline, or is gone with its owner. -/
structure Pending (state : WillBroker) (client : ClosingClient) (task : WillDelayTask)
    (deadline : Int) (will : WillMessage) (present : Prop) : Prop where
  task : task ∈ state.center
  stored : present → ∃ session, state.broker.sessions.sessions client.connection.id = some session ∧
    session.expireAtUnixNano = deadline ∧ session.willMessage = some will
  owner : present → ∃ owner, state.broker.sessions.owners client.connection.id = some owner ∧
    owner.ownerToken = client.connection.ownerToken ∧ owner.online = false
  gone : ¬ present → state.broker.sessions.sessions client.connection.id = none ∧
    state.broker.sessions.owners client.connection.id = none

section Runs

variable {state : WillBroker} {cli : ClosingClient} {snap : OfflineSnapshot}
  {sess : SessionState} {will : WillMessage} {now expiry : Int} {task : WillDelayTask}
  {present : Prop}

theorem DueAtExpiry.persisted (due : DueAtExpiry state cli snap sess will) :
    ∃ saved owner, (state.broker.persistUnfinishedMessagesToSession cli.connection
        snap).sessions.sessions cli.connection.id = some saved ∧
      saved.expireAtUnixNano = closeDeadline cli snap ∧ saved.willMessage = some will ∧
      (state.broker.persistUnfinishedMessagesToSession cli.connection
        snap).sessions.owners cli.connection.id = some owner ∧
      owner.ownerToken = cli.connection.ownerToken ∧ owner.online = false := by
  obtain ⟨owner, hr, he⟩ := due.owned
  have keeps : clearsWill cli.connection.disconnectWithoutWill = false := by
    have hk := due.content
    unfold willPublishOnClose shouldPublishWillForDisconnect at hk
    by_cases hn : cli.connection.disconnectWithoutWill = 4 ∨
        cli.connection.disconnectWithoutWill = -1
    · rcases hn with hf | hf <;> simp [clearsWill, hf]
    · rw [not_or] at hn
      simp [hn] at hk
  have notStale : state.broker.sessions.staleOwner cli.connection.id
      cli.connection.ownerToken = false := by
    simp [Core.staleOwner, hr, he]
  refine ⟨state.broker.sessions.offlineSession snap.now (cli.connection.offlineRequest
    snap), { owner with online := false }, ?_, ?_, ?_, ?_, he, rfl⟩
  · simp [Broker.persistUnfinishedMessagesToSession, validateClientOwnerRequest,
      Core.saveOfflineState, Connection.offlineRequest, due.named, due.tokened, due.node, notStale,
      due.positive.ne']
  · have hc : requestNowUnixNano snap.now snap.now = snap.now := by
      simp [requestNowUnixNano]
    simp [Core.offlineSession, Connection.offlineRequest, sessionExpiryDeadlineUnixNano, hc,
      due.positive.ne', due.finite, closeDeadline]
  · simp [Core.offlineSession, Connection.offlineRequest, keeps, due.stored, due.carries]
  · simp [Broker.persistUnfinishedMessagesToSession, validateClientOwnerRequest,
      Core.saveOfflineState, Connection.offlineRequest, due.named, due.tokened, due.node, notStale,
      due.positive.ne', Core.markOffline, hr]

theorem DueAtExpiry.plan (due : DueAtExpiry state cli snap sess will) :
    ∃ content, handleWillOnClose cli =
      .atSessionExpiry content cli.connection.sessionExpiryInterval := by
  obtain ⟨content, hf⟩ := Option.ne_none_iff_exists'.mp due.content
  have hd : 0 < cli.willDelay := due.positive.trans_le due.late
  refine ⟨content, ?_⟩
  unfold handleWillOnClose
  rw [hf]
  simp only [due.tokened, if_false, sessionExpiryDuration, due.finite]
  split
  · rename_i zero
    exact absurd (Option.some.inj zero) due.positive.ne'
  · rw [if_pos (by simp [shouldPublishWillAtSessionExpiry, hd, due.late])]

theorem DueAtExpiry.pending (due : DueAtExpiry state cli snap sess will) (now : Int) :
    Pending (state.close cli snap now).1 cli
      (cli.task now cli.connection.sessionExpiryInterval) (closeDeadline cli snap) will
      True := by
  obtain ⟨content, hp⟩ := due.plan
  obtain ⟨saved, owner, hs, he, hc, hr, ht, ho⟩ := due.persisted
  obtain ⟨center, added⟩ : ∃ center, state.center.addTask
      (cli.task now cli.connection.sessionExpiryInterval) = .ok center :=
    DelayCenter.addTask_of_valid due.named due.tokened
  have closed : (state.close cli snap now).1 =
      ⟨state.broker.persistUnfinishedMessagesToSession cli.connection snap, center⟩ := by
    simp [WillBroker.close, hp, WillBroker.addTask, added]
  rw [closed]
  exact ⟨(DelayCenter.mem_of_addTask added).mpr (.inr rfl),
    fun _ => ⟨saved, hs, he, hc⟩, fun _ => ⟨owner, hr, ht, ho⟩,
    fun ha => absurd trivial ha⟩

theorem Pending.of_same {next : WillBroker} (hp : Pending state cli task expiry will present)
    (hk : task ∈ next.center) (he : next.broker.sessions = state.broker.sessions) :
    Pending next cli task expiry will present := by
  refine ⟨hk, ?_, ?_, ?_⟩
  · rw [he]
    exact hp.stored
  · rw [he]
    exact hp.owner
  · rw [he]
    exact hp.gone

section

variable (hp : Pending state cli task expiry will present)

include hp

theorem Pending.scan {scan : Scan} (he : scan.currentTime < task.scheduledPublishTime) :
    Pending (state.scanAndExecute scan).1 cli task expiry will present := by
  refine hp.of_same ?_ (congrArg Broker.sessions (WillBroker.executeAll_broker _ _ _))
  refine WillBroker.mem_executeAll hp.task (DelayCenter.nodup_getDueTasks _) ?_ ?_
  · exact fun other hl => (DelayCenter.mem_getDueTasks.mp hl).1
  · exact fun hl => absurd (DelayCenter.mem_getDueTasks.mp hl).2 (not_le.mpr he)

theorem Pending.deleteExpiredSessions (clock now : Int) :
    Pending (state.after cli (.deleteExpiredSessions clock now)) cli task expiry will
      (present ∧ ¬ Passed expiry (requestNowUnixNano clock now)) := by
  have he : present → (sessionExpired (state.broker.sessions.sessions cli.connection.id)
      (requestNowUnixNano clock now) = true ↔ Passed expiry (requestNowUnixNano clock now)) := by
    intro hh
    obtain ⟨sess, hs, ends, -⟩ := hp.stored hh
    rw [hs, ← ends]
    exact decide_eq_true_iff
  have hk : present ∧ ¬ Passed expiry (requestNowUnixNano clock now) →
      state.broker.sessions.dropExpired cli.connection.id (requestNowUnixNano clock now) =
        state.broker.sessions := by
    rintro ⟨hh, ho⟩
    exact if_neg fun hd => ho ((he hh).mp hd)
  refine ⟨hp.task, fun hb => ?_, fun hb => ?_, fun hu => ?_⟩
  · obtain ⟨sess, hs, rest⟩ := hp.stored hb.1
    exact ⟨sess, (congrFun (congrArg Core.sessions (hk hb)) _).trans hs, rest⟩
  · obtain ⟨owner, hr, rest⟩ := hp.owner hb.1
    exact ⟨owner, (congrFun (congrArg Core.owners (hk hb)) _).trans hr, rest⟩
  · change (state.broker.sessions.dropExpired _ _).sessions _ = none ∧
      (state.broker.sessions.dropExpired _ _).owners _ = none
    by_cases hh : present
    · have past : Passed expiry (requestNowUnixNano clock now) := by
        by_contra ho
        exact hu ⟨hh, ho⟩
      rw [Core.dropExpired, if_pos ((he hh).mpr past)]
      simp
    · obtain ⟨gone, free⟩ := hp.gone hh
      rw [Core.dropExpired, gone]
      exact ⟨gone, free⟩

theorem Pending.expiryTimer (hn : cli.connection.id ≠ "") (tokened : cli.connection.ownerToken ≠ "")
    (pos : 0 < cli.connection.sessionExpiryInterval)
    (hf : cli.connection.sessionExpiryInterval ≠ neverExpireSessionInterval) :
    Pending (state.after cli .expiryTimer) cli task expiry will False := by
  have he : shouldExpireClosedClient
      (.ok (state.broker.sessions.getSessionOwner cli.connection.id)) cli.connection.id
      cli.connection.ownerToken = true := by
    unfold shouldExpireClosedClient Core.getSessionOwner
    rw [if_neg (by simp [hn, tokened])]
    by_cases hh : present
    · obtain ⟨owner, hr, ht, ho⟩ := hp.owner hh
      simp [hr, ht, ho]
    · rw [(hp.gone hh).2]
  have hc : state.broker.sessionExpiryCleanup cli.connection false =
      state.broker.cleanupExpiredSessionState cli.connection := by
    unfold Broker.sessionExpiryCleanup sessionExpiryDuration
    rw [if_neg hf]
    cases hi : cli.connection.sessionExpiryInterval with
    | zero => exact absurd hi pos.ne'
    | succ seconds =>
      simp [he]
  refine ⟨hp.task, False.elim, False.elim, fun _ => ?_⟩
  change (state.broker.sessionExpiryCleanup _ _).sessions.sessions _ = none ∧
    (state.broker.sessionExpiryCleanup _ _).sessions.owners _ = none
  rw [hc]
  simp [Broker.cleanupExpiredSessionState, hn, Broker.deleteSession]

theorem Pending.after (hn : cli.connection.id ≠ "") (ht : cli.connection.ownerToken ≠ "")
    (pos : 0 < cli.connection.sessionExpiryInterval)
    (hf : cli.connection.sessionExpiryInterval ≠ neverExpireSessionInterval) (event : Event)
    (he : ∀ scan, event = .scan scan → scan.currentTime < task.scheduledPublishTime) :
    Pending (state.after cli event) cli task expiry will (present ∧ event.Spares expiry) := by
  cases event with
  | scan scan =>
    rw [Event.Spares, and_true]
    exact hp.scan (he scan rfl)
  | deleteExpiredSessions clock now => exact hp.deleteExpiredSessions clock now
  | expiryTimer =>
    rw [Event.Spares, and_false]
    exact hp.expiryTimer hn ht pos hf

theorem Pending.afterAll (hn : cli.connection.id ≠ "") (ht : cli.connection.ownerToken ≠ "")
    (pos : 0 < cli.connection.sessionExpiryInterval)
    (hf : cli.connection.sessionExpiryInterval ≠ neverExpireSessionInterval)
    {events : List Event}
    (early : ∀ scan, .scan scan ∈ events → scan.currentTime < task.scheduledPublishTime) :
    Pending (events.foldl (WillBroker.after cli) state) cli task expiry will
      (present ∧ ∀ event ∈ events, event.Spares expiry) := by
  induction events generalizing state present with
  | nil => simpa using hp
  | cons event rest ih =>
    have first := hp.after hn ht pos hf event fun scan he => early scan (he ▸ mem_cons_self)
    have all := ih first fun scan hm => early scan (mem_cons_of_mem _ hm)
    simpa [and_assoc] using all

end

theorem getSession_of_stored {core : Core} {clientID : ClientID} {clock : Int}
    (hs : core.sessions clientID = some sess) :
    core.getSession clock clientID 0 =
      if Passed sess.expireAtUnixNano clock then none else some sess := by
  have now : requestNowUnixNano clock 0 = clock := by simp [requestNowUnixNano]
  have hh : sessionExpired (some sess) clock = decide (Passed sess.expireAtUnixNano clock) := rfl
  rw [Core.getSession, hs, now]
  by_cases hp : Passed sess.expireAtUnixNano clock <;> simp [Option.filter, hh, hp]

theorem executeTask_handed {calls : TaskCalls} {message : Message}
    (hh : (executeTask calls task).handed = some message) :
    message.sendClientID = task.clientID ∧ message.ownerToken = task.ownerToken := by
  unfold executeTask at hh
  split at hh
  · cases hh
  · split at hh
    · cases hh
    · split at hh
      · cases hh
      · cases hh
      · split at hh
        · cases hh
        · split at hh
          · cases hh
            exact ⟨rfl, rfl⟩
          · cases hh

/-- The scan that finds the task hands the Will over if it still sees the session. -/
theorem Pending.handed_iff (hp : Pending state cli task expiry will present)
    (cidEq : task.clientID = cli.connection.id)
    (ht : task.ownerToken = cli.connection.ownerToken) {scan : Scan}
    (due : task.scheduledPublishTime ≤ scan.currentTime) :
    taskMessage task will ∈ (state.scanAndExecute scan).2 ↔
      present ∧ ¬ Passed expiry (scan.sessionClock task) := by
  have he : taskMessage task will ∈ (state.scanAndExecute scan).2 ↔
      (executeTask (state.taskCalls scan task) task).handed = some (taskMessage task will) := by
    rw [WillBroker.scanAndExecute, WillBroker.executeAll_handed, mem_filterMap]
    constructor
    · rintro ⟨other, hl, handed⟩
      obtain ⟨cidEq, tokenEq⟩ := executeTask_handed handed
      obtain rfl := DelayCenter.eq_of_parts hp.task (DelayCenter.mem_getDueTasks.mp hl).1
        cidEq.symm tokenEq.symm
      exact handed
    · intro handed
      exact ⟨task, DelayCenter.mem_getDueTasks.mpr ⟨hp.task, due⟩, handed⟩
  have hv : willDelayTaskOwnerStillValid (state.taskCalls scan task).ownerRead task = true := by
    unfold willDelayTaskOwnerStillValid WillBroker.taskCalls Core.getSessionOwner
    rw [cidEq]
    by_cases hh : present
    · obtain ⟨owner, hr, tokenEq, ho⟩ := hp.owner hh
      simp [hr, tokenEq, ht, ho]
    · simp [(hp.gone hh).2]
  rw [he, executeTask, if_neg (DelayCenter.named hp.task), hv]
  simp only [WillBroker.taskCalls, Bool.not_true, Bool.false_eq_true, if_false]
  rw [cidEq]
  by_cases hh : present
  · obtain ⟨sess, hs, ends, hc⟩ := hp.stored hh
    rw [getSession_of_stored hs, ends]
    by_cases past : Passed expiry (scan.sessionClock task)
    · simp [past]
    · simp [past, hh, hc]
  · rw [Core.getSession, (hp.gone hh).1]
    simp [hh]

end Runs

/-- The first scan at or after the scheduled time hands the Will over exactly when nothing has
taken the session away and the session is read before its deadline. -/
theorem will_handed_at_expiry_iff {state : WillBroker} {client : ClosingClient}
    {snapshot : OfflineSnapshot} {session : SessionState} {will : WillMessage}
    (due : DueAtExpiry state client snapshot session will) (now : Int) (earlier : List Event)
    (scan : Scan)
    (early : ∀ other, .scan other ∈ earlier → other.currentTime <
      scheduledPublishTime now client.connection.sessionExpiryInterval)
    (first : scheduledPublishTime now client.connection.sessionExpiryInterval ≤ scan.currentTime) :
    taskMessage (client.task now client.connection.sessionExpiryInterval) will ∈
        ((earlier.foldl (WillBroker.after client)
          (state.close client snapshot now).1).scanAndExecute scan).2 ↔
      (∀ event ∈ earlier, event.Spares (closeDeadline client snapshot)) ∧
        ¬ Passed (closeDeadline client snapshot)
          (scan.sessionClock (client.task now client.connection.sessionExpiryInterval)) := by
  have hp := (due.pending now).afterAll due.named due.tokened due.positive due.finite early
  rw [true_and] at hp
  exact hp.handed_iff rfl rfl first

def tenSeconds : ClosingClient where
  connection := { id := "client", ownerToken := "a", sessionExpiryInterval := 10 }
  willMessage := some { topic := "status", payload := [], qos := 0 }
  willDelay := 10

def tenSecondsWill : WillMessage := { topic := "status", payload := [], qos := 0 }

def tenSecondsSession : SessionState where
  clientID := "client"
  willMessage := some tenSecondsWill
  sessionExpiryInterval := 10

def tenSecondsStart : WillBroker where
  broker := { Broker.empty with
    sessions := (Core.empty.setSession "client" tenSecondsSession).setOwner "client"
      { clientID := "client", nodeID := 1, ownerToken := "a", online := true } }
  center := .empty

theorem tenSeconds_due (now : Int) :
    DueAtExpiry tenSecondsStart tenSeconds { now := now } tenSecondsSession tenSecondsWill where
  named := by decide
  tokened := by decide
  node := Nat.one_ne_zero
  content := by decide
  positive := by decide
  finite := by decide
  late := by decide
  stored := rfl
  carries := rfl
  owned := ⟨_, rfl, rfl⟩

/-- Read within the microsecond of the close, the session is still there. -/
theorem will_handed_within_microsecond :
    taskMessage (tenSeconds.task 1000000600 10) tenSecondsWill ∈
      ((tenSecondsStart.close tenSeconds { now := 1000000500 } 1000000600).1.scanAndExecute
        ⟨11000000, fun _ => 11000000200⟩).2 :=
  (will_handed_at_expiry_iff (tenSeconds_due 1000000500) 1000000600 []
    ⟨11000000, fun _ => 11000000200⟩ (fun _ hm => absurd hm not_mem_nil)
    (by decide)).mpr ⟨fun _ hm => absurd hm not_mem_nil, by decide⟩

/-- A scan one millisecond after the session's end finds no session and drops the task. -/
theorem will_lost_after_expiry :
    DueAtExpiry tenSecondsStart tenSeconds { now := 1000000500 } tenSecondsSession tenSecondsWill ∧
      scheduledPublishTime 1000000600 tenSeconds.connection.sessionExpiryInterval ≤ 11001000 ∧
      taskMessage (tenSeconds.task 1000000600 10) tenSecondsWill ∉
        ((tenSecondsStart.close tenSeconds { now := 1000000500 } 1000000600).1.scanAndExecute
          ⟨11001000, fun _ => 11001000000⟩).2 :=
  ⟨tenSeconds_due _, by decide, by decide⟩

end SkyTree.Will
