import SkyTree.Client.Inflight
import SkyTree.Session.Center

/-!
# Saving and restoring the outgoing inflight table

A disconnect saves a compressed form of the table: QoS 2 and retained entries by
message and packet identifier, and one replay cursor for the QoS 1 entries. A
reconnect rebuilds the task position of a saved entry by looking its message up at
the head of the delivery queue.
-/

namespace SkyTree.Client

open Foundation Delivery Session Mqtt List

def InflightEntry.ts (entry : InflightEntry) : Nat := (ofLex entry.position).1

def InflightEntry.taskID (entry : InflightEntry) : UUID := (ofLex entry.position).2

/-- The saved form of an entry; `now` is in microseconds. -/
def InflightEntry.toUnfinished (now : Nat) (state : MessageState) (entry : InflightEntry) :
    UnfinishedMessage where
  messageID := entry.messageID
  packetID := entry.packetID
  qos := entry.qos
  state := state
  isOutgoing := true
  firstPubTime := if entry.firstPubTime = 0 then now else entry.firstPubTime
  publishPacket := entry.publishPacket

/-- QoS 1 tasks are left to the replay cursor. -/
def InflightEntry.unfinished (now : Nat) (entry : InflightEntry) : Option UnfinishedMessage :=
  if entry.packetID = 0 then none
  else if entry.qos = 1 then
    if entry.retained then some (entry.toUnfinished now .waitingPubAck) else none
  else if entry.qos = 2 then
    if entry.state = .waitingPubComp then some (entry.toUnfinished now .waitingPubComp)
    else some (entry.toUnfinished now .waitingPubRec)
  else none

def collectOutgoingUnfinishedMessages (now : Nat) (table : InflightTable) :
    List UnfinishedMessage :=
  table.entries.filterMap (InflightEntry.unfinished now)

/-- The earliest QoS 1 task that is not acknowledged. -/
def collectOutgoingReplayCursor (table : InflightTable) : Option OutgoingReplayCursor :=
  (table.inOrder.find? fun entry =>
    !entry.acked && !entry.retained && entry.qos == 1 && entry.taskID != UUID.nil).map
      fun entry =>
        { taskUnixMicro := entry.ts / 1000
          taskID := entry.taskID
          generation := entry.generation }

def isRestorableOutgoingUnfinished (message : UnfinishedMessage) : Bool :=
  message.isOutgoing && message.packetID != 0 &&
    (message.qos == 1 && message.publishPacket.isSome ||
      message.qos == 2 && message.state != .waitingPubRel)

/-- The restore order: by time of first sending, unknown times last, then by packet
identifier. -/
def restoresBefore (left right : UnfinishedMessage) : Bool :=
  if left.firstPubTime ≠ right.firstPubTime then
    if left.firstPubTime = 0 then false
    else if right.firstPubTime = 0 then true
    else decide (left.firstPubTime < right.firstPubTime)
  else decide (left.packetID < right.packetID)

def outgoingUnfinishedMessages (messages : List UnfinishedMessage) : List UnfinishedMessage :=
  (messages.filter isRestorableOutgoingUnfinished).insertionSort
    fun left right => restoresBefore right left = false

/-- `findDeliveryTaskByMessageID` looks at one batch after the persisted cursor. -/
def findDeliveryTaskByMessageID (queue : ClientQueue) (messageID : UUID) :
    Option DeliveryTask :=
  (queue.readTasks (queue.cursor.getD beforeAllTasks) 200).find? fun task =>
    task.messageID == messageID

def outgoingInflightStateFromSession : MessageState → Option InflightState
  | .waitingPubAck => some .waitingPubAck
  | .waitingPubRec => some .waitingPubRec
  | .waitingPubComp => some .waitingPubComp
  | .waitingPubRel => none

/-- What the environment decides during a restore: the clock in microseconds, fresh
message identifiers, which writes succeed, and after how many messages the connection
dies. -/
structure RestoreEnvironment where
  now : Nat
  freshID : PacketID → UUID := fun packetID => packetID + 1
  written : PacketID → Bool := fun _ => true
  limit : Nat

section

variable (environment : RestoreEnvironment) (message : UnfinishedMessage)

def firstPublishTimeFromSession : Nat :=
  if message.firstPubTime > 0 then message.firstPubTime.toNat else environment.now

def retainedEntry (state : InflightState) : InflightEntry :=
  let messageID := if message.messageID = UUID.nil then environment.freshID message.packetID
    else message.messageID
  { packetID := message.packetID
    qos := message.qos
    position := toLex (firstPublishTimeFromSession environment message * 1000, messageID)
    messageID := messageID
    retained := true
    publishPacket := message.publishPacket
    firstPubTime := firstPublishTimeFromSession environment message
    state := state
    persistedInSession := true }

/-- The entry rebuilt from the queued task; the share group is not restored. -/
def taskEntry (task : DeliveryTask) (state : InflightState) : InflightEntry where
  packetID := message.packetID
  qos := message.qos
  position := task.position
  generation := task.generation
  messageID := task.messageID
  firstPubTime := firstPublishTimeFromSession environment message
  state := state
  persistedInSession := true

def restoredEntry (queue : ClientQueue)
    (message : UnfinishedMessage) : Option InflightEntry :=
  match outgoingInflightStateFromSession message.state with
  | none => none
  | some state =>
    if message.publishPacket.isSome then some (retainedEntry environment message state)
    else if message.messageID = UUID.nil then none
    else (findDeliveryTaskByMessageID queue message.messageID).map fun task =>
      taskEntry environment message task state

end

inductive Transmission where
  | publish (entry : InflightEntry)
  | pubrel (entry : InflightEntry)

structure Restoring where
  inflight : InflightTable
  bucket : Bucket
  sent : List Transmission := []
  live : Bool := true

/-- `registerRestoredOutgoingInflight`: the entry goes in with or without a token. -/
def Restoring.register (restoring : Restoring) (entry : InflightEntry) : Restoring × Bool :=
  match restoring.bucket.tryGetToken with
  | some bucket =>
    ({ restoring with
        bucket := bucket
        inflight := restoring.inflight.put { entry with flowTokenHeld := true } }, true)
  | none =>
    ({ restoring with
        inflight := restoring.inflight.put { entry with flowTokenHeld := false } }, false)

/-- Send the packet of a registered entry; a PUBREL that cannot be written ends the
connection. -/
def Restoring.transmit (restoring : Restoring) (written : Bool) (message : UnfinishedMessage)
    (entry : InflightEntry) : Restoring :=
  if message.state = .waitingPubComp then
    if written then { restoring with sent := restoring.sent ++ [.pubrel entry] }
    else { restoring with live := false }
  else if written then { restoring with sent := restoring.sent ++ [.publish entry] }
  else restoring

def restoreOneOutgoingInflight (environment : RestoreEnvironment) (queue : ClientQueue)
    (restoring : Restoring) (message : UnfinishedMessage) : Restoring :=
  if restoring.live then
    match restoredEntry environment queue message with
    | none => restoring
    | some entry =>
      let registered := restoring.register entry
      if registered.2 then
        registered.1.transmit (environment.written message.packetID) message entry
      else registered.1
  else restoring

def restoreOutgoingInflightFromSession (environment : RestoreEnvironment) (queue : ClientQueue)
    (messages : List UnfinishedMessage) (bucket : Bucket) : Restoring :=
  ((outgoingUnfinishedMessages messages).take environment.limit).foldl
    (restoreOneOutgoingInflight environment queue) { inflight := .empty, bucket := bucket }

/-- The store keeps no generations, so a persisted cursor has generation `0`. -/
def restoreQoS1ReplayCursorFromSession (queue : ClientQueue)
    (cursor : Option OutgoingReplayCursor) : Option OutgoingReplayCursor :=
  cursor.filter fun cursor =>
    cursor.taskID != UUID.nil && decide (0 < cursor.taskUnixMicro) &&
      (queue.cursor.isNone || cursor.generation == 0)

/-- Where the runner starts to read; a replay starts one microsecond early. -/
def loadClientDeliveryCursor (queue : ClientQueue) (replay : Option OutgoingReplayCursor) :
    Position :=
  match replay with
  | none => queue.cursor.getD beforeAllTasks
  | some replay => toLex ((replay.taskUnixMicro - 1) * 1000, UUID.nil)

/-- `alignDeliveryCursorBeforeRunner` up to its first read. -/
def alignDeliveryCursorBeforeRunner (replay : Option OutgoingReplayCursor)
    (table : InflightTable) (loaded : Position) : Position :=
  match replay, table.lastTask with
  | none, some entry => if entry.retained then loaded else entry.position
  | _, _ => loaded

theorem unfinished_eq_some {now : Nat} {e : InflightEntry} {msg : UnfinishedMessage}
    (hs : e.unfinished now = some msg) :
    ∃ state, msg = e.toUnfinished now state ∧
      (e.qos = 2 → (state = .waitingPubRec ∧ e.state ≠ .waitingPubComp) ∨
        (state = .waitingPubComp ∧ e.state = .waitingPubComp)) := by
  unfold InflightEntry.unfinished at hs
  split_ifs at hs with hu first hr snd hd
  · exact ⟨_, (Option.some.inj hs).symm, fun qos => absurd (first.symm.trans qos) (by decide)⟩
  · exact ⟨_, (Option.some.inj hs).symm, fun _ => .inr ⟨rfl, hd⟩⟩
  · exact ⟨_, (Option.some.inj hs).symm, fun _ => .inl ⟨rfl, hd⟩⟩

theorem collected_distinct (now : Nat) (table : InflightTable) :
    ((collectOutgoingUnfinishedMessages now table).map UnfinishedMessage.packetID).Nodup := by
  have sublist : ((collectOutgoingUnfinishedMessages now table).map
      UnfinishedMessage.packetID).Sublist (table.entries.map InflightEntry.packetID) := by
    unfold collectOutgoingUnfinishedMessages
    induction table.entries with
    | nil => exact List.Sublist.refl _
    | cons e rest ih =>
      cases hs : e.unfinished now with
      | none =>
        rw [filterMap_cons_none hs]
        exact ih.cons _
      | some msg =>
        obtain ⟨state, rfl, -⟩ := unfinished_eq_some hs
        rw [filterMap_cons_some hs, map_cons, map_cons]
        exact ih.cons_cons e.packetID
  exact sublist.nodup table.distinct

variable {msgs : List UnfinishedMessage}

theorem outgoing_distinct (hd : (msgs.map UnfinishedMessage.packetID).Nodup) :
    ((outgoingUnfinishedMessages msgs).map UnfinishedMessage.packetID).Nodup := by
  have he := perm_insertionSort (fun left right => restoresBefore right left = false)
    (msgs.filter isRestorableOutgoingUnfinished)
  apply (he.map UnfinishedMessage.packetID).nodup_iff.mpr
  exact (filter_sublist.map _).nodup hd

theorem mem_outgoingUnfinishedMessages {msg : UnfinishedMessage} :
    msg ∈ outgoingUnfinishedMessages msgs ↔
      msg ∈ msgs ∧ isRestorableOutgoingUnfinished msg = true := by
  rw [outgoingUnfinishedMessages, mem_insertionSort, mem_filter]

theorem findDeliveryTaskByMessageID_eq_some {que : ClientQueue} {messageID : UUID}
    {task : DeliveryTask} (hf : findDeliveryTaskByMessageID que messageID = some task) :
    task ∈ que.tasks ∧ ¬ que.Passed task.position ∧ task.messageID = messageID := by
  have hm := mem_of_find?_eq_some hf
  obtain ⟨hs, ha⟩ := OrderedLog.mem_after.mp (mem_of_mem_take hm)
  refine ⟨hs, ?_, by simpa using find?_some hf⟩
  unfold ClientQueue.Passed
  cases cursor : que.cursor with
  | none => simp
  | some reached => simpa [cursor] using ha

structure Rebuilt (queue : ClientQueue) (message : UnfinishedMessage) (base : InflightEntry) :
    Prop where
  packetID : base.packetID = message.packetID
  qos : base.qos = message.qos
  waiting : base.acked = false
  state : outgoingInflightStateFromSession message.state = some base.state
  packet : base.retained = true → base.publishPacket.isSome = true
  task : base.retained = false → message.publishPacket = none ∧
    ∃ task, base.position = task.position ∧ base.messageID = task.messageID ∧
      findDeliveryTaskByMessageID queue message.messageID = some task

section Restored

variable {env : RestoreEnvironment} {que : ClientQueue} {msg : UnfinishedMessage}

theorem rebuilt_of_restoredEntry {base : InflightEntry}
    (hb : restoredEntry env que msg = some base) :
    Rebuilt que msg base := by
  unfold restoredEntry at hb
  split at hb
  · cases hb
  · next state known =>
      split_ifs at hb with hs nil
      · cases hb
        exact ⟨rfl, rfl, rfl, known, fun _ => hs, fun hr => nomatch hr⟩
      · obtain ⟨task, hf, rfl⟩ := Option.map_eq_some_iff.mp hb
        have none : msg.publishPacket = none := by simpa using hs
        exact ⟨rfl, rfl, rfl, known, (fun hr => nomatch hr), fun _ => ⟨none, task, rfl, rfl, hf⟩⟩

def restoredTransmission (message : UnfinishedMessage) (base : InflightEntry) : Transmission :=
  if message.state = .waitingPubComp then .pubrel base else .publish base

structure RestoredFrom (environment : RestoreEnvironment) (queue : ClientQueue)
    (messages : List UnfinishedMessage) (restoring : Restoring) : Prop where
  origin : ∀ entry ∈ restoring.inflight, ∃ message ∈ messages, ∃ base held,
    restoredEntry environment queue message = some base ∧
      entry = { base with flowTokenHeld := held }
  sent : ∀ transmission ∈ restoring.sent, ∃ message ∈ messages, ∃ base,
    restoredEntry environment queue message = some base ∧
      transmission = restoredTransmission message base ∧
      { base with flowTokenHeld := true } ∈ restoring.inflight

variable {msgs : List UnfinishedMessage} {rst : Restoring}

theorem RestoredFrom.mono (restored : RestoredFrom env que msgs rst)
    (more : List UnfinishedMessage) (within : ∀ msg ∈ msgs, msg ∈ more) :
    RestoredFrom env que more rst where
  origin e stored := by
    obtain ⟨msg, member, rest⟩ := restored.origin e stored
    exact ⟨msg, within msg member, rest⟩
  sent tr written := by
    obtain ⟨msg, member, rest⟩ := restored.sent tr written
    exact ⟨msg, within msg member, rest⟩

theorem register_eq (rst : Restoring) (e : InflightEntry) : ∃ bkt, (rst.register e).1 = { rst with
      bucket := bkt
      inflight := rst.inflight.put { e with flowTokenHeld := (rst.register e).2 } } := by
  unfold Restoring.register
  split
  · exact ⟨_, rfl⟩
  · exact ⟨_, rfl⟩

theorem RestoredFrom.put {msgs : List UnfinishedMessage} {rst : Restoring}
    (restored : RestoredFrom env que msgs rst) {msg : UnfinishedMessage}
    (unused : msg.packetID ∉ msgs.map UnfinishedMessage.packetID) {base : InflightEntry}
    (built : restoredEntry env que msg = some base) (bkt : Bucket)
    (held : Bool) :
    RestoredFrom env que (msgs ++ [msg]) { rst with
        bucket := bkt
        inflight := rst.inflight.put { base with flowTokenHeld := held } } where
  origin e stored := by
    rcases KeyedTable.mem_put.mp stored with ⟨old, -⟩ | rfl
    · obtain ⟨source, member, rest⟩ := restored.origin e old
      exact ⟨source, by simp [member], rest⟩
    · exact ⟨msg, by simp, base, held, built, rfl⟩
  sent tr written := by
    obtain ⟨source, member, o, otherBuilt, same, stored⟩ := restored.sent tr written
    refine ⟨source, by simp [member], o, otherBuilt, same, ?_⟩
    refine KeyedTable.mem_put.mpr (.inl ⟨stored, fun clash => unused ?_⟩)
    have here : source.packetID = msg.packetID := by
      rw [← (rebuilt_of_restoredEntry otherBuilt).packetID,
        ← (rebuilt_of_restoredEntry built).packetID]
      exact clash
    exact here ▸ mem_map_of_mem member

theorem RestoredFrom.transmit {msgs : List UnfinishedMessage} {rst : Restoring}
    (hr : RestoredFrom env que msgs rst) {msg : UnfinishedMessage}
    (hm : msg ∈ msgs) {base : InflightEntry}
    (hb : restoredEntry env que msg = some base)
    (hs : { base with flowTokenHeld := true } ∈ rst.inflight) (written : Bool) :
    RestoredFrom env que msgs (rst.transmit written msg base) := by
  have he : ∀ tr ∈ rst.sent ++ [restoredTransmission msg base],
      ∃ source ∈ msgs, ∃ o, restoredEntry env que source = some o ∧
        tr = restoredTransmission source o ∧
        { o with flowTokenHeld := true } ∈ rst.inflight := by
    intro tr sent
    rcases mem_append.mp sent with old | new
    · exact hr.sent tr old
    · exact ⟨msg, hm, base, hb, mem_singleton.mp new, hs⟩
  unfold Restoring.transmit
  split_ifs with freed
  · refine ⟨hr.origin, ?_⟩
    simpa only [restoredTransmission, freed, if_true] using he
  · exact ⟨hr.origin, hr.sent⟩
  · refine ⟨hr.origin, ?_⟩
    simpa only [restoredTransmission, freed, if_false] using he
  · exact hr

theorem restoreOne_restoredFrom (hr : RestoredFrom env que msgs rst)
    (unused : msg.packetID ∉ msgs.map UnfinishedMessage.packetID) :
    RestoredFrom env que (msgs ++ [msg]) (restoreOneOutgoingInflight env que rst msg) := by
  have hu := hr.mono (msgs ++ [msg]) fun _ hm => by simp [hm]
  unfold restoreOneOutgoingInflight
  split
  · split
    · exact hu
    · next base built =>
        obtain ⟨bkt, registered⟩ := register_eq rst base
        dsimp only
        split
        · next held =>
            rw [held] at registered
            rw [registered]
            refine (hr.put unused built bkt true).transmit (by simp) built ?_ _
            exact KeyedTable.mem_put.mpr (.inr rfl)
        · rw [registered]
          exact hr.put unused built bkt _
  · exact hu

theorem unused_of_distinct {ear rest : List UnfinishedMessage}
    (hd : ((ear ++ msg :: rest).map UnfinishedMessage.packetID).Nodup) :
    msg.packetID ∉ ear.map UnfinishedMessage.packetID := by
  rw [map_append, nodup_append] at hd
  intro hc
  exact hd.2.2 _ hc _ (by simp) rfl

theorem restore_restoredFrom (msgs : List UnfinishedMessage) {ear : List UnfinishedMessage}
    (hr : RestoredFrom env que ear rst)
    (hd : ((ear ++ msgs).map UnfinishedMessage.packetID).Nodup) :
    RestoredFrom env que (ear ++ msgs) (msgs.foldl (restoreOneOutgoingInflight env que) rst) := by
  induction msgs generalizing ear rst with
  | nil => simpa using hr
  | cons msg rest ih =>
    have hu := unused_of_distinct hd
    rw [append_cons] at hd ⊢
    rw [foldl_cons]
    exact ih (restoreOne_restoredFrom hr hu) hd

theorem restoredFrom_start (env : RestoreEnvironment) (que : ClientQueue) (bkt : Bucket) :
    RestoredFrom env que [] { inflight := .empty, bucket := bkt } := by
  refine ⟨fun e hs => ?_, fun _ sent => nomatch sent⟩
  cases hs

theorem restoreOutgoing_restoredFrom (hd : (msgs.map UnfinishedMessage.packetID).Nodup)
    (bkt : Bucket) :
    RestoredFrom env que ((outgoingUnfinishedMessages msgs).take env.limit)
      (restoreOutgoingInflightFromSession env que msgs bkt) := by
  apply restore_restoredFrom _ (restoredFrom_start env que bkt)
  exact ((take_sublist _ _).map _).nodup (outgoing_distinct hd)

@[simp] theorem transmit_inflight (rst : Restoring) (written : Bool)
    (msg : UnfinishedMessage) (e : InflightEntry) :
    (rst.transmit written msg e).inflight = rst.inflight := by
  unfold Restoring.transmit
  split_ifs <;> rfl

theorem restoreOne_of_live (que : ClientQueue) (hl : rst.live = true)
    (hw : env.written msg.packetID = true) :
    (restoreOneOutgoingInflight env que rst msg).live = true ∧ ((restoredEntry env que msg = none ∧
          (restoreOneOutgoingInflight env que rst msg).inflight = rst.inflight) ∨
        ∃ base held, restoredEntry env que msg = some base ∧
          (restoreOneOutgoingInflight env que rst msg).inflight =
            rst.inflight.put { base with flowTokenHeld := held }) := by
  unfold restoreOneOutgoingInflight
  rw [if_pos hl]
  cases hb : restoredEntry env que msg with
  | none => exact ⟨hl, .inl ⟨rfl, rfl⟩⟩
  | some base =>
    obtain ⟨bkt, registered⟩ := register_eq rst base
    dsimp only
    split
    · rw [transmit_inflight, registered, hw]
      refine ⟨?_, .inr ⟨base, _, rfl, rfl⟩⟩
      unfold Restoring.transmit
      split <;> exact hl
    · rw [registered]
      exact ⟨hl, .inr ⟨base, _, rfl, rfl⟩⟩

theorem restore_complete (que : ClientQueue) (msgs : List UnfinishedMessage)
    (rst : Restoring) (hl : rst.live = true)
    (hw : ∀ msg ∈ msgs, env.written msg.packetID = true)
    (hd : (msgs.map UnfinishedMessage.packetID).Nodup) :
    (∀ e ∈ rst.inflight, e.packetID ∉ msgs.map UnfinishedMessage.packetID →
      e ∈ (msgs.foldl (restoreOneOutgoingInflight env que) rst).inflight) ∧
    ∀ msg ∈ msgs, ∀ base, restoredEntry env que msg = some base →
      ∃ held, { base with flowTokenHeld := held } ∈
        (msgs.foldl (restoreOneOutgoingInflight env que) rst).inflight := by
  induction msgs generalizing rst with
  | nil => exact ⟨fun e hs _ => hs, fun _ none => nomatch none⟩
  | cons first rest ih =>
    obtain ⟨ha, nodup⟩ := nodup_cons.mp hd
    obtain ⟨live', effect⟩ := restoreOne_of_live que hl (hw first mem_cons_self)
    obtain ⟨hk, adds⟩ := ih _ live' (fun msg hm => hw msg (mem_cons_of_mem _ hm)) nodup
    rw [foldl_cons]
    constructor
    · intro e hs hu
      rw [map_cons, mem_cons, not_or] at hu
      apply hk e _ hu.2
      rcases effect with ⟨-, he⟩ | ⟨base, held, hb, he⟩
      · rw [he]
        exact hs
      · rw [he]
        refine KeyedTable.mem_put.mpr (.inl ⟨hs, ?_⟩)
        rw [(rebuilt_of_restoredEntry hb).packetID]
        exact hu.1
    · intro msg hm base hb
      rcases mem_cons.mp hm with rfl | later
      · rcases effect with ⟨none, -⟩ | ⟨o, held, built', he⟩
        · rw [none] at hb
          cases hb
        · rw [built'] at hb
          cases hb
          refine ⟨held, hk _ (he ▸ KeyedTable.mem_put.mpr (.inr rfl)) ?_⟩
          rw [(rebuilt_of_restoredEntry built').packetID]
          exact ha
      · exact adds msg later base hb

def Restoring.Released (restoring : Restoring) : Prop :=
  restoring.live = true → ∀ entry ∈ restoring.inflight, entry.flowTokenHeld = true →
    entry.state = .waitingPubComp →
    ∃ base, .pubrel base ∈ restoring.sent ∧ base.packetID = entry.packetID

theorem Restoring.Released.transmit {rst : Restoring} (freed : rst.Released)
    {msg : UnfinishedMessage} {base : InflightEntry} (hr : Rebuilt que msg base)
    (bkt : Bucket) (written : Bool) :
    Restoring.Released (Restoring.transmit { rst with
        bucket := bkt
        inflight := rst.inflight.put { base with flowTokenHeld := true } }
      written msg base) := by
  intro hl e hs hh state
  rw [transmit_inflight] at hs
  unfold Restoring.transmit at hl ⊢
  rcases KeyedTable.mem_put.mp hs with ⟨old, -⟩ | rfl
  · split_ifs at hl ⊢ with isComp isWritten
    · obtain ⟨o, sent, he⟩ := freed hl e old hh state
      exact ⟨o, mem_append_left _ sent, he⟩
    · obtain ⟨o, sent, he⟩ := freed hl e old hh state
      exact ⟨o, mem_append_left _ sent, he⟩
    · exact freed hl e old hh state
  · have isComp : msg.state = .waitingPubComp := by
      have hk := hr.state.trans (congrArg some state)
      cases saved : msg.state with
      | waitingPubComp => rfl
      | _ => simp [saved, outgoingInflightStateFromSession] at hk
    rw [if_pos isComp] at hl ⊢
    split_ifs at hl ⊢
    exact ⟨base, by simp, rfl⟩

theorem restoreOne_released (hr : rst.Released) (msg : UnfinishedMessage) :
    (restoreOneOutgoingInflight env que rst msg).Released := by
  unfold restoreOneOutgoingInflight
  split
  · split
    · exact hr
    · next base built =>
        obtain ⟨bkt, registered⟩ := register_eq rst base
        dsimp only
        split
        · next hh =>
            rw [hh] at registered
            rw [registered]
            exact hr.transmit (rebuilt_of_restoredEntry built) bkt _
        · next tokenless =>
            rw [registered]
            intro hl e hs hh state
            rcases KeyedTable.mem_put.mp hs with ⟨old, -⟩ | rfl
            · exact hr hl e old hh state
            · exact absurd hh tokenless
  · exact hr

theorem restore_released (msgs : List UnfinishedMessage) (bkt : Bucket) :
    (restoreOutgoingInflightFromSession env que msgs bkt).Released := by
  unfold restoreOutgoingInflightFromSession
  apply List.foldlRecOn
  · exact fun _ _ none => nomatch none
  · exact fun rst hr msg _ => restoreOne_released hr msg

end Restored

end SkyTree.Client
