import SkyTree.Client.Close
import SkyTree.Client.Restore

/-!
# Saving a table offline and restoring it

The saved form of a QoS 2 entry holds its packet identifier, message identifier and
state. The restore looks the task up again: within one batch after the persisted cursor,
and without the share group. An entry comes back unchanged exactly when its task lies in
that batch and was not handed out by a share group.
-/

namespace SkyTree.Client

open Foundation Delivery Session Mqtt List

def offlineSnapshot (table : InflightTable) (localNodeID now : Nat) : OfflineSnapshot where
  unfinishedMessages := collectOutgoingUnfinishedMessages (now / 1000) table
  outgoingReplayCursor := collectOutgoingReplayCursor table
  localNodeID := localNodeID
  now := now

structure SaveAccepted (broker : Broker) (client : Connection) (localNodeID : Nat) : Prop where
  named : client.id ≠ ""
  token : client.ownerToken ≠ ""
  node : localNodeID ≠ 0
  owner : broker.sessions.staleOwner client.id client.ownerToken = false
  lasting : client.sessionExpiryInterval ≠ 0

structure UnfinishedTask (queue : ClientQueue) (task : DeliveryTask) (entry : InflightEntry) :
    Prop where
  qos : entry.qos = 2
  waiting : entry.acked = false
  state : entry.state ≠ .waitingPubAck
  numbered : entry.packetID ≠ 0
  named : entry.messageID ≠ UUID.nil
  isTask : entry.retained = false
  packet : entry.publishPacket = none
  stored : task ∈ queue.tasks
  message : task.messageID = entry.messageID
  position : task.position = entry.position

structure GivesBack (entry restored : InflightEntry) : Prop where
  packetID : restored.packetID = entry.packetID
  qos : restored.qos = entry.qos
  acked : restored.acked = entry.acked
  state : restored.state = entry.state
  position : restored.position = entry.position
  shareGroup : restored.shareGroup = entry.shareGroup
  sharedTaskID : restored.sharedTaskID = entry.sharedTaskID

/-- Fewer than two hundred stored tasks lie between the persisted cursor and the task. -/
def NearCursor (queue : ClientQueue) (task : DeliveryTask) : Prop :=
  queue.cursor.getD beforeAllTasks < task.position ∧
    ((queue.tasks.after (queue.cursor.getD beforeAllTasks)).filter fun other =>
      decide (other.position < task.position)).length < 200

variable {queue : ClientQueue} {task : DeliveryTask} {entry : InflightEntry}

section

variable (hu : UnfinishedTask queue task entry)

include hu

theorem UnfinishedTask.found_iff :
    findDeliveryTaskByMessageID queue entry.messageID = some task ↔ NearCursor queue task := by
  have hb : task ∈ queue.readTasks (queue.cursor.getD beforeAllTasks) 200 ↔
    NearCursor queue task := by
    unfold ClientQueue.readTasks NearCursor
    rw [OrderedLog.mem_take_after_iff]
    simp only [hu.stored, true_and]
  rw [← hb]
  constructor
  · exact mem_of_find?_eq_some
  · intro hr
    have isSome : (findDeliveryTaskByMessageID queue entry.messageID).isSome = true := by
      apply find?_isSome.mpr
      exact ⟨task, hr, by simp [hu.message]⟩
    obtain ⟨o, hf⟩ := Option.isSome_iff_exists.mp isSome
    obtain ⟨hs, -, msgEq⟩ := findDeliveryTaskByMessageID_eq_some hf
    rw [hf, queue.eq_of_messageID_eq hs hu.stored (msgEq.trans hu.message.symm)]

theorem UnfinishedTask.eq_of_found {o : DeliveryTask}
    (hf : findDeliveryTaskByMessageID queue entry.messageID = some o) :
    o = task := by
  obtain ⟨hs, -, msgEq⟩ := findDeliveryTaskByMessageID_eq_some hf
  exact queue.eq_of_messageID_eq hs hu.stored (msgEq.trans hu.message.symm)

theorem UnfinishedTask.saved (now : Nat) :
    ∃ state, entry.unfinished now = some (entry.toUnfinished now state) ∧
      outgoingInflightStateFromSession state = some entry.state ∧
      isRestorableOutgoingUnfinished (entry.toUnfinished now state) = true := by
  cases hw : entry.state with
  | waitingPubAck => exact absurd hw hu.state
  | waitingPubRec =>
    refine ⟨.waitingPubRec, ?_, rfl, ?_⟩
    · simp [InflightEntry.unfinished, hu.numbered, hu.qos, hw]
    · simp [isRestorableOutgoingUnfinished, InflightEntry.toUnfinished, hu.numbered, hu.qos]
  | waitingPubComp =>
    refine ⟨.waitingPubComp, ?_, rfl, ?_⟩
    · simp [InflightEntry.unfinished, hu.numbered, hu.qos, hw]
    · simp [isRestorableOutgoingUnfinished, InflightEntry.toUnfinished, hu.numbered, hu.qos]

theorem UnfinishedTask.restoredEntry_eq (env : RestoreEnvironment) (now : Nat)
    {state : MessageState}
    (hk : outgoingInflightStateFromSession state = some entry.state) :
    restoredEntry env queue (entry.toUnfinished now state) =
      (findDeliveryTaskByMessageID queue entry.messageID).map fun found =>
        taskEntry env (entry.toUnfinished now state) found entry.state := by
  have stateEq : (entry.toUnfinished now state).state = state := rfl
  have hp : (entry.toUnfinished now state).publishPacket = none := hu.packet
  have hn : (entry.toUnfinished now state).messageID ≠ UUID.nil := hu.named
  unfold restoredEntry
  rw [stateEq, hk]
  simp only [hp, hn, Option.isSome_none, Bool.false_eq_true, if_false]
  rfl

end

section Restore

variable {env : RestoreEnvironment} {table : InflightTable} {msgs : List UnfinishedMessage}

/-- The restore of a collected table gives the entry back exactly when its task is near
the cursor and belongs to no share group. -/
theorem UnfinishedTask.restored_iff (hu : UnfinishedTask queue task entry)
    (hs : entry ∈ table) (now : Nat)
    (hc : outgoingUnfinishedMessages msgs =
      outgoingUnfinishedMessages (collectOutgoingUnfinishedMessages now table))
    (whole : msgs.length ≤ env.limit)
    (hw : ∀ packetID, env.written packetID = true) (bkt : Bucket) :
    (∃ restored ∈ (restoreOutgoingInflightFromSession env queue msgs bkt).inflight,
      GivesBack entry restored) ↔
      NearCursor queue task ∧ entry.shareGroup = "" ∧ entry.sharedTaskID = UUID.nil := by
  obtain ⟨state, saved, hk, able⟩ := hu.saved now
  have hr := hu.restoredEntry_eq env now hk
  have hd := outgoing_distinct (collected_distinct now table)
  have few : (outgoingUnfinishedMessages msgs).length ≤ env.limit := by
    rw [outgoingUnfinishedMessages, length_insertionSort]
    exact (length_filter_le _ _).trans whole
  rw [restoreOutgoingInflightFromSession, take_of_length_le few, hc, ← hu.found_iff]
  constructor
  · rintro ⟨restored, hm, hg⟩
    have hf := restore_restoredFrom (outgoingUnfinishedMessages _)
      (restoredFrom_start env queue bkt) hd
    obtain ⟨msg, hl, base, held, hb, rfl⟩ := hf.origin restored hm
    obtain ⟨o, put, hh⟩ := mem_filterMap.mp (mem_outgoingUnfinishedMessages.mp hl).1
    -- the saved message is the one of this entry, by its packet identifier
    have he : o = entry := by
      obtain ⟨otherState, rfl, -⟩ := unfinished_eq_some hh
      apply table.eq_of_key_eq put hs
      exact (rebuilt_of_restoredEntry hb).packetID.symm.trans hg.packetID
    subst he
    obtain rfl := Option.some.inj (saved.symm.trans hh)
    rw [hr] at hb
    obtain ⟨found, isFound, rfl⟩ := Option.map_eq_some_iff.mp hb
    rw [hu.eq_of_found isFound] at isFound
    exact ⟨isFound, hg.shareGroup.symm, hg.sharedTaskID.symm⟩
  · rintro ⟨found, unshared, unset⟩
    rw [found, Option.map_some] at hr
    have hl : entry.toUnfinished now state ∈
        outgoingUnfinishedMessages (collectOutgoingUnfinishedMessages now table) :=
      mem_outgoingUnfinishedMessages.mpr ⟨mem_filterMap.mpr ⟨entry, hs, saved⟩, able⟩
    obtain ⟨-, ha⟩ := restore_complete queue
      (outgoingUnfinishedMessages (collectOutgoingUnfinishedMessages now table))
      { inflight := .empty, bucket := bkt } rfl (fun msg _ => hw msg.packetID)
      hd
    obtain ⟨held, hm⟩ := ha _ hl _ hr
    exact ⟨_, hm, rfl, rfl, hu.waiting.symm, rfl, hu.position, unshared.symm, unset.symm⟩

end Restore

section Session

variable {broker : Broker} {client : Connection} {localNodeID : Nat}

theorem SaveAccepted.sessions (snap : OfflineSnapshot)
    (ha : SaveAccepted broker client snap.localNodeID) :
    (broker.persistUnfinishedMessagesToSession client snap).sessions.sessions client.id =
      some (broker.sessions.offlineSession snap.now (client.offlineRequest snap)) := by
  have hv : validateClientOwnerRequest client.id client.ownerToken snap.localNodeID = .ok () := by
    simp [validateClientOwnerRequest, ha.named, ha.token, ha.node]
  have hs : broker.sessions.saveOfflineState snap.now (client.offlineRequest snap) =
      .ok ((broker.sessions.setSession client.id (broker.sessions.offlineSession snap.now
        (client.offlineRequest snap))).markOffline client.id) := by
    simp [Core.saveOfflineState, Connection.offlineRequest, ha.named, ha.owner, ha.lasting]
  simp [Broker.persistUnfinishedMessagesToSession, hv, hs]

theorem outgoing_merge (existing offline : List UnfinishedMessage) :
    outgoingUnfinishedMessages (mergeOfflineUnfinishedMessages existing offline) =
      outgoingUnfinishedMessages offline := by
  have hi : (existing.filter fun message => !message.isOutgoing &&
      !(offline.any fun saved => !saved.isOutgoing && saved.packetID == message.packetID)).filter
        isRestorableOutgoingUnfinished = [] := by
    apply filter_eq_nil_iff.mpr
    intro message hm hr
    have hk := (mem_filter.mp hm).2
    simp only [Bool.and_eq_true, Bool.not_eq_true'] at hk
    simp [isRestorableOutgoingUnfinished, hk.1] at hr
  unfold outgoingUnfinishedMessages mergeOfflineUnfinishedMessages
  rw [filter_append, hi, nil_append]

/-- An unfinished QoS 2 entry survives the offline save and the restore of the next
connection exactly when fewer than two hundred stored tasks lie between the persisted
cursor and its task and no share group handed the task out. -/
theorem offline_round_trip_iff {table : InflightTable} {now : Nat}
    (accepted : SaveAccepted broker client localNodeID) (stored : entry ∈ table)
    (unfinished : UnfinishedTask queue task entry)
    {clock : Int} {request : OpenSessionForConnectRequest}
    (sameClient : request.clientID = client.id)
    (unexpired : sessionExpired ((broker.persistUnfinishedMessagesToSession client
        (offlineSnapshot table localNodeID now)).sessions.sessions client.id)
      (requestNowUnixNano clock request.nowUnixNano) = false)
    {opened : Core} {response : OpenSessionForConnectResponse}
    (done : (broker.persistUnfinishedMessagesToSession client
      (offlineSnapshot table localNodeID now)).sessions.openSessionForConnect clock request =
        .ok (opened, response))
    {environment : RestoreEnvironment}
    (uninterrupted : response.session.unfinishedMessages.length ≤ environment.limit)
    (written : ∀ packetID, environment.written packetID = true) (bucket : Bucket) :
    (∃ restored ∈ (restoreOutgoingInflightFromSession environment queue
        response.session.unfinishedMessages bucket).inflight, GivesBack entry restored) ↔
      NearCursor queue task ∧ entry.shareGroup = "" ∧ entry.sharedTaskID = UUID.nil := by
  have hs : (broker.persistUnfinishedMessagesToSession client
      (offlineSnapshot table localNodeID now)).sessions.sessions client.id = some _ :=
    SaveAccepted.sessions (offlineSnapshot table localNodeID now) accepted
  rw [hs] at unexpired
  rw [← sameClient] at hs
  apply unfinished.restored_iff stored (now / 1000) _ uninterrupted written
  unfold Core.openSessionForConnect at done
  split_ifs at done
  obtain ⟨-, rfl⟩ := Prod.mk.inj (Except.ok.inj done)
  simp only [Core.effectiveSession, Core.dropExpired, hs, unexpired, Bool.false_eq_true, if_false]
  exact outgoing_merge _ _

def sentTask (number : Nat) (shareGroup : String) : DeliveryTask where
  ts := number
  taskID := number
  messageID := number
  deliveryQoS := 2
  shareGroup := shareGroup
  sharedTaskID := if shareGroup = "" then UUID.nil else 9

def sentEntry (task : DeliveryTask) : InflightEntry where
  packetID := 1
  qos := 2
  position := task.position
  messageID := task.messageID
  shareGroup := task.shareGroup
  sharedTaskID := task.sharedTaskID
  flowTokenHeld := true
  state := .waitingPubRec

def aliceConnection : Connection :=
  { id := "alice", ownerToken := "token", sessionExpiryInterval := 3600 }

def aliceReturns : OpenSessionForConnectRequest :=
  { clientID := "alice", willMessage := none, sessionExpiryInterval := 3600, nowUnixNano := 2000 }

def reconnected (table : InflightTable) (queue : ClientQueue) : Option InflightTable :=
  let broker := Broker.empty.persistUnfinishedMessagesToSession aliceConnection
    (offlineSnapshot table 1 1000)
  match broker.sessions.openSessionForConnect 2000 aliceReturns with
  | .error _ => none
  | .ok (_, response) =>
    some (restoreOutgoingInflightFromSession { now := 2, limit := 10 } queue
      response.session.unfinishedMessages (.new 10)).inflight

def onlyTask (shareGroup : String) : ClientQueue :=
  (ClientQueue.empty.appendTask (sentTask 1 shareGroup)).1

def backlog (count : Nat) : ClientQueue where
  tasks :=
    { entries := (List.range count).map fun number => sentTask (number + 1) ""
      sorted := by
        rw [pairwise_map]
        apply pairwise_lt_range.imp
        intro first second below
        rw [Prod.Lex.lt_iff]
        exact .inl (Nat.succ_lt_succ below) }
  cursor := none
  deduplicated := by
    rw [map_map]
    exact nodup_range.map fun _ _ same => Nat.succ.inj same

def twoSent : InflightTable :=
  (KeyedTable.empty.put (sentEntry (sentTask 1 ""))).put
    { sentEntry (sentTask 2 "") with packetID := 2 }

theorem offline_round_trip_iff_second :
    ∃ table, reconnected twoSent (backlog 3) = some table ∧
      ∃ restored ∈ table, GivesBack { sentEntry (sentTask 2 "") with packetID := 2 } restored := by
  have accepted : SaveAccepted Broker.empty aliceConnection 1 :=
    ⟨by decide, by decide, by decide, rfl, by decide⟩
  have stored : { sentEntry (sentTask 2 "") with packetID := 2 } ∈ twoSent :=
    KeyedTable.mem_put.mpr (.inr rfl)
  have unfinished : UnfinishedTask (backlog 3) (sentTask 2 "")
      { sentEntry (sentTask 2 "") with packetID := 2 } :=
    ⟨rfl, rfl, by decide, by decide, by decide, rfl, rfl, by decide, rfl, rfl⟩
  have unexpired : sessionExpired ((Broker.empty.persistUnfinishedMessagesToSession
      aliceConnection (offlineSnapshot twoSent 1 1000)).sessions.sessions "alice")
      (requestNowUnixNano 2000 aliceReturns.nowUnixNano) = false := by decide
  refine ⟨_, rfl, ?_⟩
  exact (offline_round_trip_iff accepted stored unfinished rfl unexpired rfl (by decide)
    (fun _ => rfl) (.new 10)).mpr ⟨⟨by decide, by decide⟩, rfl, rfl⟩

/-- An entry behind two hundred other tasks is not restored, and a shared task comes back
without its share group. -/
theorem offline_round_trip_loses : (sentTask 201 "" ∈ (backlog 201).tasks ∧
      (reconnected (KeyedTable.empty.put (sentEntry (sentTask 201 ""))) (backlog 201)).map
        KeyedTable.entries = some []) ∧
    ∃ table restored, reconnected (KeyedTable.empty.put (sentEntry (sentTask 1 "g")))
        (onlyTask "g") = some table ∧
      table.get 1 = some restored ∧ restored.position = (sentTask 1 "g").position ∧
      restored.shareGroup = "" ∧ restored.sharedTaskID = UUID.nil :=
  ⟨⟨by decide, by decide⟩, _, _, rfl, rfl, rfl, rfl, rfl⟩

end Session

end SkyTree.Client
