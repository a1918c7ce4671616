import SkyTree.SharedSubscription.GroupSteps

/-!
# Invariants of a share group

What holds in every run, whatever fails: identifiers name one task, a task that left the
pending state was claimed, what consumer, rollbacks and member queues refer to is stored,
and the consumer works through its batch in key order.
-/

namespace SkyTree.SharedSubscription

open Foundation Delivery List Function OrderedLog ShareGroupTask ShareQueue DeliveryStore

/-! ## Queues that differ in one task -/

/-- `after` holds `record` under the identifier and is `before` elsewhere. -/
structure Rewrites (before after : ShareQueue) (taskID : UUID) (record : ShareGroupTask) :
    Prop where
  identified : record.taskID = taskID
  mem_iff : ∀ task, task ∈ after.tasks ↔
    task = record ∨ (task ∈ before.tasks ∧ task.taskID ≠ taskID)
  cursor : after.cursor = before.cursor

section Rewrites

variable {before after que : ShareQueue} {tid : UUID} {rec task : ShareGroupTask} {now : Nat}

theorem Rewrites.distinct (hr : Rewrites before after tid rec)
    (hd : before.Distinct) : after.Distinct := by
  intro a storedA b storedB he
  rcases (hr.mem_iff a).mp storedA with rfl | ⟨oldA, apartA⟩ <;>
    rcases (hr.mem_iff b).mp storedB with rfl | ⟨oldB, apartB⟩
  · rfl
  · exact absurd (he.symm.trans hr.identified) apartB
  · exact absurd (he.trans hr.identified) apartA
  · exact hd a oldA b oldB he

theorem Rewrites.of_append (hf : ∀ stored ∈ que.tasks, stored.taskID ≠ task.taskID) :
    Rewrites que (que.appendShareTask task) task.taskID task where
  identified := rfl
  mem_iff other := by
    rw [ShareQueue.Distinct.mem_append_iff hf]
    exact or_congr_right (and_iff_left_of_imp (hf other)).symm
  cursor := rfl

theorem Rewrites.of_setStatus (hd : que.Distinct) (hs : rec ∈ que.tasks) (newStatus : TaskStatus) :
    Rewrites que (que.setShareTaskStatus rec newStatus now) rec.taskID
      (rec.withStatus newStatus now) where
  identified := withStatus_taskID _ _ _
  mem_iff _ := hd.mem_setStatus_iff hs newStatus
  cursor := rfl

theorem StatusChange.cases_rewrites {oldStatus newStatus : TaskStatus} {updated : Bool}
    (hc : StatusChange que tid oldStatus newStatus now after updated)
    (hd : que.Distinct) :
    after = que ∨ ∃ old ∈ que.tasks, old.taskID = tid ∧ old.status = oldStatus ∧
      Rewrites que after tid (old.withStatus newStatus now) := by
  cases hc with
  | lost => exact .inl rfl
  | made hf he =>
    obtain ⟨hs, rfl⟩ := findShareTask_eq_some hf
    exact .inr ⟨_, hs, rfl, he, .of_setStatus hd hs newStatus⟩

theorem RolledBack.cases_rewrites (hc : RolledBack que task now after) (hd : que.Distinct) :
    (after = que ∧ ∃ old ∈ que.tasks, old.taskID = task.taskID ∧ old.status = .completed) ∨
      ∃ rec, rec.status = .pending ∧ rec.position = toLex (now, task.taskID) ∧
        Rewrites que after task.taskID rec ∧
        ((∀ old ∈ que.tasks, old.taskID ≠ task.taskID) ∧ rec.messageID = task.messageID ∨
          ∃ old ∈ que.tasks, old.taskID = task.taskID ∧ rec.messageID = old.messageID) := by
  cases hc with
  | done hf ended =>
    obtain ⟨hs, he⟩ := findShareTask_eq_some hf
    exact .inl ⟨rfl, _, hs, he, ended⟩
  | @pending rec hf ho =>
    obtain ⟨hs, he⟩ := findShareTask_eq_some hf
    have hr : Rewrites que (que.setShareTaskStatus rec .pending now) rec.taskID
        (rec.withStatus .pending now) := .of_setStatus hd hs .pending
    rw [he] at hr
    refine .inr ⟨_, by simp, ?_, hr, .inr ⟨rec, hs, he, by simp⟩⟩
    rw [withStatus_position_pending, he]
  | created hm => exact .inr ⟨_, rfl, rfl, .of_append hm, .inl ⟨hm, rfl⟩⟩

end Rewrites

/-! ## What the parties refer to is stored -/

namespace GroupState

def Known (queue : ShareQueue) (taskID messageID : UUID) : Prop :=
  ∃ record ∈ queue.tasks, record.taskID = taskID ∧ record.messageID = messageID

structure Sound (shareGroup : String) (s : GroupState) : Prop where
  distinct : s.queue.Distinct
  appendingNew : ∀ task ∈ s.appending, (task.status = .pending ∧ task.taskID ∉ s.claimed) ∧
    ∀ stored ∈ s.queue.tasks, stored.taskID ≠ task.taskID
  appendingApart : (s.appending.map ShareGroupTask.taskID).Nodup
  held : ∀ task ∈ s.queue.tasks, task.status = .processing ∨ task.status = .rolledBack →
    task.taskID ∈ s.claimed
  batched : ∀ task ∈ s.consumer.batch, Known s.queue task.taskID task.messageID
  current : ∀ task ∈ s.consumer.phase.task, task.taskID ∈ s.claimed ∧
    Known s.queue task.taskID task.messageID
  queued : ∀ clientID, ∀ delivery ∈ (s.deliveries clientID).tasks,
    delivery.shareGroup = shareGroup → delivery.sharedTaskID ∈ s.claimed ∧
      Known s.queue delivery.sharedTaskID delivery.messageID
  listed : ∀ clientID, ∀ task ∈ (s.rollbacks clientID).listed, task.taskID ∈ s.claimed ∧
    Known s.queue task.taskID task.messageID

section Sound

variable {grp : String} {s : GroupState}

theorem Sound.initial : Sound grp {} where
  distinct := fun a hm => absurd hm (not_mem_empty a)
  appendingNew := nofun
  appendingApart := nodup_nil
  held := fun a hm => absurd hm (not_mem_empty a)
  batched := nofun
  current := nofun
  queued := fun _ dlv hm => absurd hm (not_mem_empty dlv)
  listed := nofun

variable {rec : ShareGroupTask}

theorem Known.rewrite {before after : ShareQueue} {tid : UUID} (hr : Rewrites before after tid rec)
    (he : ∀ old ∈ before.tasks, old.taskID = tid → rec.messageID = old.messageID)
    {other messageID : UUID} (hk : Known before other messageID) :
    Known after other messageID := by
  obtain ⟨old, hs, rfl, rfl⟩ := hk
  by_cases hit : old.taskID = tid
  · exact ⟨rec, (hr.mem_iff _).mpr (.inl rfl), hr.identified.trans hit.symm, he old hs hit⟩
  · exact ⟨old, (hr.mem_iff _).mpr (.inr ⟨hs, hit⟩), rfl, rfl⟩

theorem Sound.rewrite (sound : Sound grp s) {que : ShareQueue} {tid : UUID}
    {rec : ShareGroupTask} (rewrites : Rewrites s.queue que tid rec)
    (same : ∀ old ∈ s.queue.tasks, old.taskID = tid → rec.messageID = old.messageID)
    (held : rec.status = .processing ∨ rec.status = .rolledBack → tid ∈ s.claimed)
    (apart : ∀ task ∈ s.appending, task.taskID ≠ tid) :
    Sound grp { s with queue := que } where
  distinct := rewrites.distinct sound.distinct
  appendingNew task member := by
    refine ⟨(sound.appendingNew task member).1, fun stored inside => ?_⟩
    rcases (rewrites.mem_iff stored).mp inside with rfl | ⟨old, -⟩
    · rw [rewrites.identified]
      exact (apart task member).symm
    · exact (sound.appendingNew task member).2 stored old
  appendingApart := sound.appendingApart
  held task stored status := by
    rcases (rewrites.mem_iff task).mp stored with rfl | ⟨old, -⟩
    · rw [rewrites.identified]
      exact held status
    · exact sound.held task old status
  batched task member := (sound.batched task member).rewrite rewrites same
  current task member := (sound.current task member).imp_right (Known.rewrite rewrites same)
  queued cid dlv stored own :=
    (sound.queued cid dlv stored own).imp_right (Known.rewrite rewrites same)
  listed cid task member := (sound.listed cid task member).imp_right (Known.rewrite rewrites same)

theorem Sound.not_appending (hs : Sound grp s) (stored : rec ∈ s.queue.tasks) :
    ∀ task ∈ s.appending, task.taskID ≠ rec.taskID :=
  fun task hm => ((hs.appendingNew task hm).2 rec stored).symm

theorem Sound.statusChange (sound : Sound grp s) {que : ShareQueue} {tid : UUID}
    {oldStatus newStatus : TaskStatus} {updated : Bool}
    (hc : StatusChange s.queue tid oldStatus newStatus s.clock que updated)
    (hh : newStatus = .processing ∨ newStatus = .rolledBack →
      oldStatus = .processing ∨ oldStatus = .rolledBack ∨ tid ∈ s.claimed) :
    Sound grp { s with queue := que } := by
  rcases hc.cases_rewrites sound.distinct with rfl | ⟨old, hs, rfl, status, hr⟩
  · exact sound
  · refine sound.rewrite hr ?_ ?_ (sound.not_appending hs)
    · intro other hm he
      rw [sound.distinct other hm old hs he, withStatus_messageID]
    · intro ht
      rw [withStatus_status] at ht
      rcases hh ht with busy | waits | taken
      · exact sound.held old hs (.inl (status.trans busy))
      · exact sound.held old hs (.inr (status.trans waits))
      · exact taken

theorem Sound.setConsumer (hs : Sound grp s) (cons : Consumer)
    (hb : ∀ task ∈ cons.batch, Known s.queue task.taskID task.messageID)
    (hc : ∀ task ∈ cons.phase.task, task.taskID ∈ s.claimed ∧
      Known s.queue task.taskID task.messageID) :
    Sound grp { s with consumer := cons } :=
  { hs with
    batched := hb
    current := hc }

theorem Sound.advance (sound : Sound grp s) (task : ShareGroupTask) (per : Bool) :
    Sound grp (s.advance task per) := by
  have hs : Sound grp
      { s with queue := if per then s.queue.appendCursor task.position else s.queue } := by
    cases per with
    | true => exact { sound with }
    | false => exact sound
  exact hs.setConsumer _ hs.batched nofun

theorem Sound.setDeliveries (hs : Sound grp s) (ds : DeliveryStore)
    (hq : ∀ cid, ∀ dlv ∈ (ds cid).tasks, dlv.shareGroup = grp → dlv.sharedTaskID ∈ s.claimed ∧
        Known s.queue dlv.sharedTaskID dlv.messageID) :
    Sound grp { s with deliveries := ds } :=
  { hs with
    queued := hq }

theorem Sound.setRollback (sound : Sound grp s) (cid : ClientID) {phase : RollbackPhase}
    (listed : ∀ task ∈ phase.listed, task.taskID ∈ s.claimed ∧
      Known s.queue task.taskID task.messageID) :
    Sound grp (s.setRollback cid phase) :=
  { sound with
    listed other task member := by
      by_cases own : other = cid
      · subst own
        rw [setRollback_self] at member
        exact listed task member
      · rw [setRollback_of_ne s phase own] at member
        exact sound.listed other task member }

theorem Sound.shortenRollback (hs : Sound grp s) (cid : ClientID)
    {phase : RollbackPhase} (shorter : ∀ task ∈ phase.listed,
      task ∈ (s.rollbacks cid).listed) : Sound grp (s.setRollback cid phase) :=
  hs.setRollback cid fun task hm => hs.listed cid task (shorter task hm)

theorem Sound.setPhase (hs : Sound grp s) (phase : Phase)
    (hk : ∀ task ∈ phase.task, task ∈ s.consumer.phase.task) :
    Sound grp { s with consumer := { s.consumer with phase := phase } } :=
  hs.setConsumer _ hs.batched fun task hm => hs.current task (hk task hm)

variable {task : ShareGroupTask}

theorem Sound.shortenBatch (hs : Sound grp s) {rest : List ShareGroupTask}
    (hb : s.consumer.batch = task :: rest) :
    Sound grp { s with consumer := { s.consumer with batch := rest } } := by
  refine hs.setConsumer _ (fun other hm => ?_) hs.current
  exact hs.batched other (hb ▸ mem_cons_of_mem _ hm)

theorem Sound.addClaimed (sound : Sound grp s) (stored : rec ∈ s.queue.tasks) :
    Sound grp { s with claimed := rec.taskID :: s.claimed } :=
  { sound with
    appendingNew task member := by
      obtain ⟨⟨pending, unclaimed⟩, new⟩ := sound.appendingNew task member
      refine ⟨⟨pending, ?_⟩, new⟩
      rw [mem_cons, not_or]
      exact ⟨sound.not_appending stored task member, unclaimed⟩
    held task member status := mem_cons_of_mem _ (sound.held task member status)
    current task member := (sound.current task member).imp_left (mem_cons_of_mem _)
    queued cid dlv member own := (sound.queued cid dlv member own).imp_left (mem_cons_of_mem _)
    listed cid task member := (sound.listed cid task member).imp_left (mem_cons_of_mem _) }

theorem Sound.shrinkAppending (sound : Sound grp s) (task : ShareGroupTask) :
    Sound grp { s with appending := s.appending.erase task } :=
  { sound with
    appendingNew other member := sound.appendingNew other (mem_of_mem_erase member)
    appendingApart := sound.appendingApart.sublist (erase_sublist.map _) }

variable {ds : DeliveryStore}

theorem Sound.shrinkDeliveries (hs : Sound grp s)
    (hk : ∀ cid, ∀ dlv ∈ (ds cid).tasks, dlv ∈ (s.deliveries cid).tasks) :
    Sound grp { s with deliveries := ds } :=
  hs.setDeliveries ds fun cid dlv hm =>
    hs.queued cid dlv (hk cid dlv hm)

variable {cid other : ClientID} {dlv : DeliveryTask}

theorem mem_of_mem_appendClientTask {task : DeliveryTask}
    (hm : dlv ∈ (ds.appendClientTask cid task other).tasks) :
    (other = cid ∧ dlv = task) ∨ dlv ∈ (ds other).tasks := by
  by_cases own : other = cid
  · subst own
    rw [appendClientTask_self] at hm
    exact (ClientQueue.mem_of_mem_appendTask hm).imp_left fun he => ⟨rfl, he⟩
  · rw [appendClientTask_of_ne _ _ own] at hm
    exact .inr hm

theorem mem_of_mem_advanceClientCursor {pos : Position}
    (hm : dlv ∈ (ds.advanceClientCursor cid pos other).tasks) :
    dlv ∈ (ds other).tasks := by
  by_cases own : other = cid
  · subst own
    rw [DeliveryStore.advanceClientCursor, update_self] at hm
    exact ClientQueue.mem_of_mem_advanceCursor hm
  · rwa [DeliveryStore.advanceClientCursor, update_of_ne own] at hm

theorem mem_of_mem_deleteClientState (hm : dlv ∈ (ds.deleteClientState cid other).tasks) :
    dlv ∈ (ds other).tasks := by
  by_cases own : other = cid
  · subst own
    rw [deleteClientState_self] at hm
    exact absurd hm (not_mem_empty dlv)
  · rwa [deleteClientState_of_ne _ own] at hm

theorem mem_of_mem_deleteClientSharedTasks
    (hm : dlv ∈ (ds.deleteClientSharedTasks cid grp other).tasks) :
    dlv ∈ (ds other).tasks := by
  by_cases own : other = cid
  · subst own
    rw [DeliveryStore.deleteClientSharedTasks, update_self] at hm
    exact (OrderedLog.mem_filter.mp hm).1
  · rwa [DeliveryStore.deleteClientSharedTasks, update_of_ne own] at hm

variable {act : RollbackAction} {next : GroupState}

theorem mem_of_rollbackMoves (moves : RollbackMoves grp s cid act next)
    (hm : dlv ∈ (next.deliveries other).tasks) :
    dlv ∈ (s.deliveries other).tasks := by
  cases moves with
  | finished hl hd =>
    rcases hd with rfl | ⟨-, rfl⟩
    · exact hm
    · exact mem_of_mem_deleteClientSharedTasks hm
  | _ => exact hm

theorem mem_of_environmentMoves {act : EnvironmentAction} (moves : EnvironmentMoves grp s act next)
    (hm : dlv ∈ (next.deliveries other).tasks) (own : dlv.shareGroup = grp) :
    dlv ∈ (s.deliveries other).tasks := by
  cases moves with
  | enqueue alien hf =>
    rcases mem_of_mem_appendClientTask hm with ⟨-, rfl⟩ | old
    · exact absurd own alien
    · exact old
  | acknowledge => exact mem_of_mem_advanceClientCursor hm
  | expire => exact mem_of_mem_deleteClientState hm
  | _ => exact hm

/-! ## Steps -/

theorem mem_of_mem_readShareGroupTasks {que : ShareQueue} {last : Option Position} {limit : Nat}
    (hm : task ∈ que.readShareGroupTasks last limit) :
    task ∈ que.tasks := by
  have after := (mem_filter.mp (mem_of_mem_take hm)).1
  cases last with
  | none => exact after
  | some pos => exact (mem_after.mp after).1

theorem Sound.consumerMoves (sound : Sound grp s) {act : ConsumerAction}
    (moves : ConsumerMoves grp s act next) :
    Sound grp next := by
  cases moves with
  | restart loaded =>
    exact sound.setConsumer _ nofun nofun
  | read idle done =>
    refine sound.setConsumer _ (fun task member => ?_) sound.current
    exact ⟨task, mem_of_mem_readShareGroupTasks member, rfl, rfl⟩
  | claimFailed idle batch => exact sound.shortenBatch batch
  | @claimed task rec rest per idle batch found pending =>
    obtain ⟨stored, same⟩ := findShareTask_eq_some found
    have claimed := sound.addClaimed stored
    rw [same] at claimed
    have change : StatusChange s.queue task.taskID .pending .processing s.clock _ _ :=
      .made found pending
    have changed := claimed.statusChange change fun _ => .inr (.inr mem_cons_self)
    refine changed.setConsumer _ (changed.shortenBatch batch).batched ?_
    rintro _ ⟨⟩
    exact ⟨mem_cons_self, changed.batched task (batch ▸ mem_cons_self)⟩
  | @taken task rest per idle batch lost => exact (sound.shortenBatch batch).advance task _
  | candidates claimed chosen =>
    refine sound.setPhase _ ?_
    rw [claimed]
    rcases chosen with rfl | rfl
    · exact fun _ same => same
    · exact fun _ same => same
  | @assigned task rem selected res resolve tid assigning found fresh =>
    have own := sound.current task (by rw [assigning]; rfl)
    have grown : Sound grp { s with
        deliveries := s.deliveries.appendClientTask selected.clientID
          (clientTask grp task res s.clock tid) } := by
      refine sound.setDeliveries _ fun cid dlv member ofGroup => ?_
      rcases mem_of_mem_appendClientTask member with ⟨-, rfl⟩ | old
      · exact own
      · exact sound.queued cid dlv old ofGroup
    refine grown.setPhase _ ?_
    rw [assigning]
    exact fun _ same => same
  | assignFailed assigning =>
    refine sound.setPhase _ ?_
    rw [assigning]
    exact fun _ same => same
  | @woken task rem selected per waking => exact sound.advance task _
  | wakeFailed waking =>
    refine sound.setPhase _ ?_
    rw [waking]
    exact fun _ same => same
  | revertFailed reverting => exact sound.setPhase _ nofun
  | reverted reverting changed =>
    have back := sound.statusChange changed fun taken => by simp at taken
    exact back.setPhase _ nofun

theorem Sound.environmentMoves (hs : Sound grp s) {act : EnvironmentAction}
    (moves : EnvironmentMoves grp s act next) :
    Sound grp next := by
  cases moves with
  | tick => exact { hs with }
  | @begin mid tid shareTask hu =>
    obtain ⟨notStored, still, free⟩ := hu
    refine ⟨hs.distinct, ?_, ?_, hs.held, hs.batched, hs.current, hs.queued, hs.listed⟩
    · intro task hm
      rcases mem_cons.mp hm with rfl | old
      · exact ⟨⟨rfl, free⟩, notStored⟩
      · exact hs.appendingNew task old
    · refine nodup_cons.mpr ⟨fun hi => ?_, hs.appendingApart⟩
      obtain ⟨task, hm, he⟩ := mem_map.mp hi
      exact still task hm he
  | @commit task ht =>
    obtain ⟨⟨hp, free⟩, new⟩ := hs.appendingNew task ht
    refine (hs.shrinkAppending task).rewrite (.of_append new) ?_ ?_ ?_
    · exact fun old stored he => absurd he (new old stored)
    · intro status
      simp [hp] at status
    · intro other hm he
      have ha := hs.appendingApart
      have hd := (List.Nodup.of_map _ ha).mem_erase_iff.mp hm
      exact hd.1 (inj_on_of_nodup_map ha hd.2 ht he)
  | abandon => exact hs.shrinkAppending _
  | requeue hc | complete hc => exact hs.statusChange hc fun ht => by simp at ht
  | enqueue alien hf =>
    refine hs.setDeliveries _ fun cid dlv hm ofGroup => ?_
    have old := mem_of_environmentMoves (.enqueue alien hf) hm ofGroup
    exact hs.queued cid dlv old ofGroup
  | acknowledge => exact hs.shrinkDeliveries fun _ _ => mem_of_mem_advanceClientCursor
  | expire => exact hs.shrinkDeliveries fun _ _ => mem_of_mem_deleteClientState

theorem mem_readUnacked {que : ClientQueue} {last : Option Position}
    (hm : task ∈ readUnackedSharedSubscriptionTasks que grp last) :
    ∃ dlv ∈ que.tasks, dlv.shareGroup = grp ∧
      dlv.sharedTaskID = task.taskID ∧ dlv.sharedTaskID ≠ UUID.nil ∧
      dlv.messageID = task.messageID := by
  obtain ⟨dlv, hi, rfl⟩ := mem_map.mp hm
  obtain ⟨after, hs⟩ := mem_filter.mp hi
  obtain ⟨ofGroup, hn⟩ := of_decide_eq_true hs
  refine ⟨dlv, ?_, ofGroup, (if_neg hn).symm, hn, rfl⟩
  cases last with
  | none => exact after
  | some pos => exact (mem_after.mp after).1

theorem Sound.rollbackMoves (hs : Sound grp s)
    (moves : RollbackMoves grp s cid act next) : Sound grp next := by
  cases moves with
  | readCursor hi chosen =>
    refine hs.shortenRollback cid fun task hm => ?_
    rcases chosen with rfl | rfl <;> cases hm
  | readFailed reading | cancel => exact hs.shortenRollback cid nofun
  | readTasks reading =>
    refine hs.setRollback cid fun task hm => ?_
    obtain ⟨dlv, stored, ofGroup, he, -, msg⟩ := mem_readUnacked hm
    have hk := hs.queued cid dlv stored ofGroup
    rwa [he, msg] at hk
  | lookUpFailed hl =>
    refine hs.shortenRollback cid fun task hm => ?_
    rw [hl]
    exact mem_cons_of_mem _ hm
  | processing hl stored he status | notProcessing hl =>
    refine hs.shortenRollback cid fun task hm => ?_
    rw [hl]
    exact hm
  | recheck hw chosen =>
    refine hs.shortenRollback cid fun task hm => ?_
    rw [hw]
    rcases chosen with rfl | rfl
    · exact mem_cons_of_mem _ hm
    · exact hm
  | markFailed marks =>
    refine hs.shortenRollback cid fun task hm => ?_
    rw [marks]
    exact mem_cons_of_mem _ hm
  | marked marks hf status =>
    have change : StatusChange s.queue _ .processing .rolledBack s.clock _ _ := .made hf status
    have marked' := hs.statusChange change fun _ => .inl rfl
    refine marked'.shortenRollback cid fun task hm => ?_
    rw [show ({ s with queue := _ } : GroupState).rollbacks cid = _ from marks]
    exact hm
  | rollBackFailed ready =>
    refine hs.shortenRollback cid fun task hm => ?_
    rw [ready]
    exact mem_cons_of_mem _ hm
  | @rolledBack task rest back que ready hc =>
    have own := hs.listed cid task (by rw [ready]; exact mem_cons_self)
    have hb : Sound grp { s with queue := que } := by
      rcases hc.cases_rewrites hs.distinct with
        ⟨rfl, -⟩ | ⟨rec, hp, -, hr, msg⟩
      · exact hs
      · refine hs.rewrite hr (fun old stored he => ?_) ?_ fun other hm he => ?_
        · rcases msg with ⟨lost, -⟩ | ⟨first, hm, idEq, msg⟩
          · exact absurd he (lost old stored)
          · rw [msg, hs.distinct first hm old stored (idEq.trans he.symm)]
        · intro status
          simp [hp] at status
        · exact (hs.appendingNew other hm).1.2 (he ▸ own.1)
    refine hb.shortenRollback cid fun other hm => ?_
    rw [show ({ s with queue := que } : GroupState).rollbacks cid = _ from ready]
    exact mem_cons_of_mem _ hm
  | @finished failed back ds hl hd =>
    have shrunk : Sound grp { s with deliveries := ds } :=
      hs.shrinkDeliveries fun _ _ => mem_of_rollbackMoves
        (.finished hl hd : RollbackMoves grp s cid (.finish failed) _)
    exact shrunk.shortenRollback cid nofun

theorem consumer_of_rollbackMoves (hm : RollbackMoves grp s cid act next) :
    next.consumer = s.consumer := by
  cases hm <;> rfl

theorem consumer_of_environmentMoves {act : EnvironmentAction}
    (hm : EnvironmentMoves grp s act next) : next.consumer = s.consumer := by
  cases hm <;> rfl

theorem Sound.step (sound : Sound grp s) {label : GroupLabel} {next : GroupState}
    (taken : (shareGroupSystem grp).step s label = some next) : Sound grp next := by
  cases label with
  | consumer act => exact sound.consumerMoves (.of_step taken)
  | rollback cid act => exact sound.rollbackMoves (.of_step taken)
  | environment act => exact sound.environmentMoves (.of_step taken)

end Sound

end GroupState

end SkyTree.SharedSubscription
