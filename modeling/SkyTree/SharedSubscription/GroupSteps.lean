import SkyTree.SharedSubscription.Group

/-!
# What the steps of a share group do

Each family of steps is taken apart once. The cases name the record a status change hits,
so that invariants are proved by cases on a step and not by unfolding it.
-/

namespace SkyTree.SharedSubscription

open Foundation Delivery

/-- The outcome of a status change: no task in the old status, or one record rewritten. -/
inductive StatusChange (queue : ShareQueue) (taskID : UUID) (oldStatus newStatus : TaskStatus)
    (now : Nat) : ShareQueue → Bool → Prop where
  | lost (missing : ∀ record, queue.findShareTask taskID = some record →
      record.status ≠ oldStatus) : StatusChange queue taskID oldStatus newStatus now queue false
  | made {record : ShareGroupTask} (found : queue.findShareTask taskID = some record)
      (expected : record.status = oldStatus) :
      StatusChange queue taskID oldStatus newStatus now
        (queue.setShareTaskStatus record newStatus now) true

theorem StatusChange.of_update (queue : ShareQueue) (tid : UUID)
    (oldStatus newStatus : TaskStatus) (now : Nat) :
    StatusChange queue tid oldStatus newStatus now
      (queue.updateShareTaskStatus tid oldStatus newStatus now).1
      (queue.updateShareTaskStatus tid oldStatus newStatus now).2 := by
  rcases queue.updateShareTaskStatus_cases tid oldStatus newStatus now with
    ⟨hu, hm⟩ | ⟨rec, hf, he, hc⟩
  · rw [hu]
    exact .lost hm
  · rw [hc]
    exact .made hf he

inductive RolledBack (queue : ShareQueue) (task : ShareGroupTask) (now : Nat) :
    ShareQueue → Prop where
  | done {record : ShareGroupTask} (found : queue.findShareTask task.taskID = some record)
      (completed : record.status = .completed) : RolledBack queue task now queue
  | pending {record : ShareGroupTask} (found : queue.findShareTask task.taskID = some record)
      (open_ : record.status ≠ .completed) :
      RolledBack queue task now (queue.setShareTaskStatus record .pending now)
  | created (missing : ∀ record ∈ queue.tasks, record.taskID ≠ task.taskID) :
      RolledBack queue task now (queue.appendShareTask
        { task with
          status := .pending, processedByNode := 0, processedAtNano := 0, timestamp := now })

theorem RolledBack.of_rollback (queue : ShareQueue) (task : ShareGroupTask) (now : Nat) :
    RolledBack queue task now (queue.rollbackShareTask task now) := by
  unfold ShareQueue.rollbackShareTask
  split
  next record found =>
    split
    next completed => exact .done found completed
    next open_ => exact .pending found open_
  next missing => exact .created (ShareQueue.findShareTask_eq_none_iff.mp missing)

/-! ## The consumer -/

variable (shareGroup : String) (s : GroupState) in
inductive ConsumerMoves : ConsumerAction → GroupState → Prop where
  | restart (loaded : Bool) :
      ConsumerMoves (.restart loaded)
        { s with consumer := { position := if loaded then s.queue.cursor else none } }
  | read (idle : s.consumer.phase = .idle) (done : s.consumer.batch = []) :
      ConsumerMoves .read
        { s with consumer :=
          { s.consumer with
            batch := s.queue.readShareGroupTasks s.consumer.position defaultBatchSize } }
  | claimFailed {task rest persisted}
      (idle : s.consumer.phase = .idle) (batch : s.consumer.batch = task :: rest) :
      ConsumerMoves (.claim true persisted) { s with consumer := { s.consumer with batch := rest } }
  | claimed {task record rest persisted}
      (idle : s.consumer.phase = .idle) (batch : s.consumer.batch = task :: rest)
      (found : s.queue.findShareTask task.taskID = some record)
      (pending : record.status = .pending) :
      ConsumerMoves (.claim false persisted)
        { s with
          queue := s.queue.setShareTaskStatus record .processing s.clock
          consumer := { s.consumer with batch := rest, phase := .claimed task }
          claimed := task.taskID :: s.claimed }
  | taken {task rest persisted}
      (idle : s.consumer.phase = .idle) (batch : s.consumer.batch = task :: rest)
      (lost : ∀ record, s.queue.findShareTask task.taskID = some record →
        record.status ≠ .pending) :
      ConsumerMoves (.claim false persisted)
        (GroupState.advance { s with consumer := { s.consumer with batch := rest } } task persisted)
  | candidates {task found phase} (claimed : s.consumer.phase = .claimed task)
      (chosen : phase = .reverting task ∨ phase = .assigning task found) :
      ConsumerMoves (.candidates found) { s with consumer := { s.consumer with phase := phase } }
  | assigned {task remaining selected resolved resolve taskID}
      (assigning : s.consumer.phase = .assigning task remaining)
      (found : selectClientForTask resolve remaining = some (selected, resolved))
      (fresh : s.FreshIn selected.clientID taskID) :
      ConsumerMoves (.assign resolve (some taskID))
        { s with
          deliveries := s.deliveries.appendClientTask selected.clientID
            (clientTask shareGroup task resolved s.clock taskID)
          consumer := { s.consumer with phase := .waking task remaining selected } }
  | assignFailed {task remaining resolve taskID}
      (assigning : s.consumer.phase = .assigning task remaining) :
      ConsumerMoves (.assign resolve taskID)
        { s with consumer := { s.consumer with phase := .reverting task } }
  | woken {task remaining selected persisted}
      (waking : s.consumer.phase = .waking task remaining selected) :
      ConsumerMoves (.wake true persisted) (s.advance task persisted)
  | wakeFailed {task remaining selected persisted}
      (waking : s.consumer.phase = .waking task remaining selected) :
      ConsumerMoves (.wake false persisted)
        { s with consumer :=
          { s.consumer with phase := .assigning task (remainingAfter remaining selected) } }
  | revertFailed {task} (reverting : s.consumer.phase = .reverting task) :
      ConsumerMoves (.revert true) { s with consumer := { s.consumer with phase := .idle } }
  | reverted {task queue updated} (reverting : s.consumer.phase = .reverting task)
      (changed : StatusChange s.queue task.taskID .processing .pending s.clock queue updated) :
      ConsumerMoves (.revert false)
        { s with queue := queue, consumer := { s.consumer with phase := .idle } }

section Consumer

variable {grp : String} {s next : GroupState}

theorem ConsumerMoves.of_claim {failed per : Bool}
    (ht : s.consumerStep grp (.claim failed per) = some next) :
    ConsumerMoves grp s (.claim failed per) next := by
  unfold GroupState.consumerStep at ht
  dsimp only at ht
  split at ht
  next task rest idle batch =>
    cases failed with
    | true =>
      cases ht
      exact .claimFailed idle batch
    | false =>
      rcases s.queue.updateShareTaskStatus_cases task.taskID .pending .processing s.clock with
        ⟨hu, hm⟩ | ⟨rec, hf, he, hc⟩
      · simp only [hu, Bool.false_eq_true, if_false] at ht
        cases ht
        exact .taken idle batch hm
      · simp only [hc, if_true, Bool.false_eq_true, if_false] at ht
        cases ht
        exact .claimed idle batch hf he
  next => cases ht

theorem ConsumerMoves.of_assign {resolve : ClientID → Option ResolvedClientOptions}
    {tid : Option UUID}
    (ht : s.consumerStep grp (.assign resolve tid) = some next) :
    ConsumerMoves grp s (.assign resolve tid) next := by
  unfold GroupState.consumerStep at ht
  dsimp only at ht
  split at ht
  next task rem assigning =>
    split at ht
    next selected res tid found =>
      obtain ⟨hf, rfl⟩ := of_guard ht
      exact .assigned assigning found hf
    next =>
      cases ht
      exact .assignFailed assigning
  next => cases ht

theorem ConsumerMoves.of_step {act : ConsumerAction} (ht : s.consumerStep grp act = some next) :
    ConsumerMoves grp s act next := by
  cases act with
  | restart loaded =>
    cases ht
    exact .restart loaded
  | read =>
    obtain ⟨⟨hi, hd⟩, rfl⟩ := of_guard ht
    exact .read hi hd
  | claim failed per => exact .of_claim ht
  | candidates found =>
    unfold GroupState.consumerStep at ht
    dsimp only at ht
    split at ht
    next task claimed =>
      cases ht
      exact .candidates claimed (ite_eq_or_eq _ _ _)
    next => cases ht
  | assign resolve tid => exact .of_assign ht
  | wake woken per =>
    unfold GroupState.consumerStep at ht
    dsimp only at ht
    split at ht
    next task rem selected waking =>
      cases woken with
      | true =>
        cases ht
        exact .woken waking
      | false =>
        cases ht
        exact .wakeFailed waking
    next => cases ht
  | revert failed =>
    unfold GroupState.consumerStep at ht
    dsimp only at ht
    split at ht
    next task reverting =>
      cases ht
      cases failed with
      | true => exact .revertFailed reverting
      | false => exact .reverted reverting (.of_update _ _ _ _ _)
    next => cases ht

end Consumer

/-! ## The rollback -/

variable (shareGroup : String) (s : GroupState) (clientID : ClientID) in
inductive RollbackMoves : RollbackAction → GroupState → Prop where
  | readCursor {failed phase} (idle : s.rollbacks clientID = .idle)
      (chosen : phase = .idle ∨ phase = .reading (s.deliveries clientID).cursor) :
      RollbackMoves (.readCursor failed) (s.setRollback clientID phase)
  | readFailed {cursor} (reading : s.rollbacks clientID = .reading cursor) :
      RollbackMoves (.readTasks true) (s.setRollback clientID .idle)
  | readTasks {cursor} (reading : s.rollbacks clientID = .reading cursor) :
      RollbackMoves (.readTasks false) (s.setRollback clientID
        (.next (readUnackedSharedSubscriptionTasks (s.deliveries clientID) shareGroup cursor)
          false))
  | lookUpFailed {task rest rolledBackAny}
      (listed : s.rollbacks clientID = .next (task :: rest) rolledBackAny) :
      RollbackMoves (.lookUp true) (s.setRollback clientID (.next rest rolledBackAny))
  | processing {task processingTask rest rolledBackAny}
      (listed : s.rollbacks clientID = .next (task :: rest) rolledBackAny)
      (stored : processingTask ∈ s.queue.tasks) (same : processingTask.messageID = task.messageID)
      (status : processingTask.status = .processing) :
      RollbackMoves (.lookUp false)
        (s.setRollback clientID (.waiting task processingTask rest rolledBackAny))
  | notProcessing {task rest rolledBackAny}
      (listed : s.rollbacks clientID = .next (task :: rest) rolledBackAny) :
      RollbackMoves (.lookUp false) (s.setRollback clientID (.prepared task rest rolledBackAny))
  | recheck {failed task processingTask rest rolledBackAny phase}
      (waiting : s.rollbacks clientID = .waiting task processingTask rest rolledBackAny)
      (chosen : phase = .next rest rolledBackAny ∨
        phase = .marking task processingTask rest rolledBackAny) :
      RollbackMoves (.recheck failed) (s.setRollback clientID phase)
  | markFailed {failed task processingTask rest rolledBackAny}
      (marking : s.rollbacks clientID = .marking task processingTask rest rolledBackAny) :
      RollbackMoves (.mark failed) (s.setRollback clientID (.next rest rolledBackAny))
  | marked {task processingTask record rest rolledBackAny}
      (marking : s.rollbacks clientID = .marking task processingTask rest rolledBackAny)
      (found : s.queue.findShareTask processingTask.taskID = some record)
      (status : record.status = .processing) :
      RollbackMoves (.mark false)
        (({ s with queue := s.queue.setShareTaskStatus record .rolledBack s.clock } :
          GroupState).setRollback clientID (.prepared task rest rolledBackAny))
  | rollBackFailed {task rest rolledBackAny}
      (prepared : s.rollbacks clientID = .prepared task rest rolledBackAny) :
      RollbackMoves (.rollBack true) (s.setRollback clientID (.next rest rolledBackAny))
  | rolledBack {task rest rolledBackAny queue}
      (prepared : s.rollbacks clientID = .prepared task rest rolledBackAny)
      (changed : RolledBack s.queue task s.clock queue) :
      RollbackMoves (.rollBack false)
        (({ s with queue := queue } : GroupState).setRollback clientID (.next rest true))
  | finished {failed rolledBackAny deliveries}
      (listed : s.rollbacks clientID = .next [] rolledBackAny)
      (deleted : deliveries = s.deliveries ∨ (rolledBackAny = true ∧
        deliveries = s.deliveries.deleteClientSharedTasks clientID shareGroup)) :
      RollbackMoves (.finish failed)
        (({ s with deliveries := deliveries } : GroupState).setRollback clientID .idle)
  | cancel : RollbackMoves .cancel (s.setRollback clientID .idle)

section Rollback

variable {grp : String} {s next : GroupState} {cid : ClientID}

theorem RollbackMoves.of_lookUp {failed : Bool}
    (ht : s.rollbackStep grp cid (.lookUp failed) = some next) :
    RollbackMoves grp s cid (.lookUp failed) next := by
  unfold GroupState.rollbackStep at ht
  dsimp only at ht
  split at ht
  next task rest back listed =>
    cases failed with
    | true =>
      cases ht
      exact .lookUpFailed listed
    | false =>
      simp only [Bool.false_eq_true, if_false] at ht
      split at ht
      next share found =>
        cases ht
        have matched := List.find?_some found
        simp only [List.cons_ne_nil, false_or, decide_eq_true_eq] at matched
        split
        next status =>
          exact .processing listed (List.mem_of_find?_eq_some found) matched.2 status
        next => exact .notProcessing listed
      next =>
        cases ht
        exact .notProcessing listed
  next => cases ht

theorem RollbackMoves.of_mark {failed : Bool}
    (ht : s.rollbackStep grp cid (.mark failed) = some next) :
    RollbackMoves grp s cid (.mark failed) next := by
  unfold GroupState.rollbackStep at ht
  dsimp only at ht
  split at ht
  next task share rest back marking =>
    cases failed with
    | true =>
      cases ht
      exact .markFailed marking
    | false =>
      rcases s.queue.updateShareTaskStatus_cases share.taskID .processing .rolledBack
          s.clock with ⟨hu, -⟩ | ⟨rec, hf, he, hc⟩
      · simp only [hu, Bool.false_eq_true, if_false] at ht
        cases ht
        exact .markFailed marking
      · simp only [hc, if_true, Bool.false_eq_true, if_false] at ht
        cases ht
        exact .marked marking hf he
  next => cases ht

theorem RollbackMoves.of_step {act : RollbackAction} (ht : s.rollbackStep grp cid act = some next) :
    RollbackMoves grp s cid act next := by
  cases act with
  | lookUp failed => exact .of_lookUp ht
  | mark failed => exact .of_mark ht
  | cancel =>
    cases ht
    exact .cancel
  | readCursor failed =>
    unfold GroupState.rollbackStep at ht
    dsimp only at ht
    split at ht
    next idle =>
      obtain ⟨-, he⟩ := Option.ite_none_left_eq_some.mp ht
      cases he
      exact .readCursor idle (ite_eq_or_eq _ _ _)
    next => cases ht
  | readTasks failed =>
    unfold GroupState.rollbackStep at ht
    dsimp only at ht
    split at ht
    next cursor reading =>
      cases ht
      cases failed with
      | true => exact .readFailed reading
      | false => exact .readTasks reading
    next => cases ht
  | recheck failed =>
    unfold GroupState.rollbackStep at ht
    dsimp only at ht
    split at ht
    next task share rest back waiting =>
      cases ht
      exact .recheck waiting (ite_eq_or_eq _ _ _)
    next => cases ht
  | rollBack failed =>
    unfold GroupState.rollbackStep at ht
    dsimp only at ht
    split at ht
    next task rest back prepared =>
      cases failed with
      | true =>
        cases ht
        exact .rollBackFailed prepared
      | false =>
        cases ht
        exact .rolledBack prepared (.of_rollback _ _ _)
    next => cases ht
  | finish failed =>
    unfold GroupState.rollbackStep at ht
    dsimp only at ht
    split at ht
    next back listed =>
      cases ht
      refine .finished listed ?_
      split
      next deleting =>
        obtain ⟨any, -⟩ := Bool.and_eq_true_iff.mp deleting
        exact .inr ⟨any, rfl⟩
      next => exact .inl rfl
    next => cases ht

end Rollback

/-! ## The environment -/

variable (shareGroup : String) (s : GroupState) in
inductive EnvironmentMoves : EnvironmentAction → GroupState → Prop where
  | tick : EnvironmentMoves .tick { s with clock := s.clock + 1 }
  | begin {messageID taskID shareTask} (unused : s.Unused taskID) :
      EnvironmentMoves (.begin messageID taskID shareTask)
        { s with
          appending := newPendingShareGroupTask s.clock messageID taskID shareTask :: s.appending }
  | commit {task} (taken : task ∈ s.appending) :
      EnvironmentMoves (.commit task)
        { s with
          queue := s.queue.appendShareTask task
          appending := s.appending.erase task }
  | abandon {task} :
      EnvironmentMoves (.abandon task) { s with appending := s.appending.erase task }
  | requeue {taskID queue updated}
      (changed : StatusChange s.queue taskID .processing .pending s.clock queue updated) :
      EnvironmentMoves (.requeue taskID) { s with queue := queue }
  | complete {taskID oldStatus queue updated}
      (changed : StatusChange s.queue taskID oldStatus .completed s.clock queue updated) :
      EnvironmentMoves (.complete taskID oldStatus) { s with queue := queue }
  | enqueue {clientID task} (foreign : task.shareGroup ≠ shareGroup)
      (fresh : s.FreshIn clientID task.taskID) :
      EnvironmentMoves (.enqueue clientID task)
        { s with deliveries := s.deliveries.appendClientTask clientID task }
  | acknowledge {clientID position} :
      EnvironmentMoves (.acknowledge clientID position)
        { s with deliveries := s.deliveries.advanceClientCursor clientID position }
  | expire {clientID} :
      EnvironmentMoves (.expire clientID)
        { s with deliveries := s.deliveries.deleteClientState clientID }

theorem EnvironmentMoves.of_step {grp : String} {s next : GroupState}
    {act : EnvironmentAction} (ht : s.environmentStep grp act = some next) :
    EnvironmentMoves grp s act next := by
  cases act with
  | tick =>
    cases ht
    exact .tick
  | begin mid tid shareTask =>
    obtain ⟨⟨-, -, -, hu⟩, rfl⟩ := of_guard ht
    exact .begin hu
  | commit task =>
    obtain ⟨hm, rfl⟩ := of_guard ht
    exact .commit hm
  | abandon task =>
    cases ht
    exact .abandon
  | requeue tid =>
    cases ht
    exact .requeue (.of_update _ _ _ _ _)
  | complete tid oldStatus =>
    cases ht
    exact .complete (.of_update _ _ _ _ _)
  | enqueue cid task =>
    obtain ⟨⟨alien, hf⟩, rfl⟩ := of_guard ht
    exact .enqueue alien hf
  | acknowledge cid pos =>
    cases ht
    exact .acknowledge
  | expire cid =>
    cases ht
    exact .expire

end SkyTree.SharedSubscription
