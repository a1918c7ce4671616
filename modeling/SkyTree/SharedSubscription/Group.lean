import SkyTree.Foundation.Transition
import SkyTree.SharedSubscription.Assignment
import SkyTree.SharedSubscription.Enqueue

/-!
# A share group at work

One share group as a transition system. Publishers take a timestamp and commit a task
later; the group's consumer reads batches after its cursor, claims and assigns tasks; the
rollback of a client runs beside it; timeouts requeue tasks and clients complete them.
Each store call is one step, and a call that fails is a step as well.
-/

namespace SkyTree.SharedSubscription

open Foundation Delivery

/-! ## States -/

/-- Where the consumer stands with the task it took from its batch. -/
inductive Phase where
  | idle
  | claimed (task : ShareGroupTask)
  | assigning (task : ShareGroupTask) (remaining : List OnlineShareGroupMember)
  | waking (task : ShareGroupTask) (remaining : List OnlineShareGroupMember)
      (selected : OnlineShareGroupMember)
  | reverting (task : ShareGroupTask)
  deriving DecidableEq

def Phase.task : Phase → Option ShareGroupTask
  | .idle => none
  | .claimed task => some task
  | .assigning task _ => some task
  | .waking task _ _ => some task
  | .reverting task => some task

/-- The cursor in memory and the tasks of the current batch that are still to be handled. -/
structure Consumer where
  position : Option Position := none
  batch : List ShareGroupTask := []
  phase : Phase := .idle
  deriving DecidableEq

/-- Where `RollbackClientTasks` stands; `rolledBackAny` is its variable of that name. -/
inductive RollbackPhase where
  | idle
  | reading (cursor : Option Position)
  | next (tasks : List ShareGroupTask) (rolledBackAny : Bool)
  | waiting (task processingTask : ShareGroupTask) (rest : List ShareGroupTask)
      (rolledBackAny : Bool)
  | marking (task processingTask : ShareGroupTask) (rest : List ShareGroupTask)
      (rolledBackAny : Bool)
  | prepared (task : ShareGroupTask) (rest : List ShareGroupTask) (rolledBackAny : Bool)
  deriving DecidableEq

def RollbackPhase.listed : RollbackPhase → List ShareGroupTask
  | .idle => []
  | .reading _ => []
  | .next tasks _ => tasks
  | .waiting task _ rest _ => task :: rest
  | .marking task _ rest _ => task :: rest
  | .prepared task rest _ => task :: rest

/-- The stores, the publishers between timestamp and commit, the consumer, the rollbacks by
client and a clock. `claimed` records the tasks the consumer ever claimed. -/
structure GroupState where
  queue : ShareQueue := .empty
  deliveries : DeliveryStore := fun _ => .empty
  appending : List ShareGroupTask := []
  consumer : Consumer := {}
  rollbacks : ClientID → RollbackPhase := fun _ => .idle
  clock : Nat := 0
  claimed : List UUID := []

/-! ## The consumer -/

def defaultBatchSize : Nat := 100

inductive ConsumerAction where
  /-- A new consumer starts; its cursor may fail to load. -/
  | restart (loaded : Bool)
  | read
  /-- The next task of the batch is claimed; the update may fail. -/
  | claim (failed persisted : Bool)
  /-- The online candidates in the order they are tried; none when they cannot be read. -/
  | candidates (found : List OnlineShareGroupMember)
  /-- A delivery task is appended for the selected candidate; without an identifier the append
  fails. -/
  | assign (resolve : ClientID → Option ResolvedClientOptions) (taskID : Option UUID)
  | wake (woken persisted : Bool)
  | revert (failed : Bool)

namespace GroupState

variable (shareGroup : String) (s : GroupState)

def advance (task : ShareGroupTask) (persisted : Bool) : GroupState :=
  { s with
    queue := if persisted then s.queue.appendCursor task.position else s.queue
    consumer := { s.consumer with position := some task.position, phase := .idle } }

/-- Identifiers that `uuid.NewV7` returns are not in use. -/
def FreshIn (clientID : ClientID) (taskID : UUID) : Prop :=
  ∀ delivery ∈ (s.deliveries clientID).tasks, delivery.taskID ≠ taskID

instance (clientID : ClientID) (taskID : UUID) : Decidable (s.FreshIn clientID taskID) :=
  inferInstanceAs (Decidable (∀ delivery ∈ (s.deliveries clientID).tasks.entries, _))

def consumerStep : ConsumerAction → Option GroupState
  | .restart loaded =>
    some { s with consumer := { position := if loaded then s.queue.cursor else none } }
  | .read =>
    if s.consumer.phase = .idle ∧ s.consumer.batch = [] then
      some { s with consumer :=
        { s.consumer with
          batch := s.queue.readShareGroupTasks s.consumer.position defaultBatchSize } }
    else none
  | .claim failed persisted =>
    match s.consumer.phase, s.consumer.batch with
    | .idle, task :: rest =>
      let s := { s with consumer := { s.consumer with batch := rest } }
      if failed then some s
      else
        let (queue, updated) :=
          s.queue.updateShareTaskStatus task.taskID .pending .processing s.clock
        if updated then
          some { s with
            queue := queue
            consumer := { s.consumer with phase := .claimed task }
            claimed := task.taskID :: s.claimed }
        else some (s.advance task persisted)
    | _, _ => none
  | .candidates found =>
    match s.consumer.phase with
    | .claimed task =>
      some { s with consumer := { s.consumer with
        phase := if found = [] then .reverting task else .assigning task found } }
    | _ => none
  | .assign resolve taskID =>
    match s.consumer.phase with
    | .assigning task remaining =>
      match selectClientForTask resolve remaining, taskID with
      | some (selected, resolved), some taskID =>
        if s.FreshIn selected.clientID taskID then
          some { s with
            deliveries := s.deliveries.appendClientTask selected.clientID
              (clientTask shareGroup task resolved s.clock taskID)
            consumer := { s.consumer with phase := .waking task remaining selected } }
        else none
      | _, _ => some { s with consumer := { s.consumer with phase := .reverting task } }
    | _ => none
  | .wake woken persisted =>
    match s.consumer.phase with
    | .waking task remaining selected =>
      if woken then some (s.advance task persisted)
      else some { s with consumer := { s.consumer with
        phase := .assigning task (remainingAfter remaining selected) } }
    | _ => none
  | .revert failed =>
    match s.consumer.phase with
    | .reverting task =>
      some { s with
        queue := if failed then s.queue else
          (s.queue.updateShareTaskStatus task.taskID .processing .pending s.clock).1
        consumer := { s.consumer with phase := .idle } }
    | _ => none

end GroupState

/-! ## The rollback of a client -/

/-- The share task that a delivery task stands for, with what the delivery task knows of it. -/
def shareGroupTaskFromDeliveryTask (task : DeliveryTask) : ShareGroupTask where
  taskID := if task.sharedTaskID = UUID.nil then task.taskID else task.sharedTaskID
  shareGroup := task.shareGroup
  messageID := task.messageID
  deliveryQoS := task.deliveryQoS
  subscriptionIDs := task.subscriptionIDs
  winnerNoLocal := task.noLocal
  winnerRAP := task.retainAsPublished
  timestamp := task.ts

def readUnackedSharedSubscriptionTasks (queue : ClientQueue) (shareGroup : String)
    (last : Option Position) : List ShareGroupTask :=
  let tasks := match last with
    | none => queue.tasks.entries
    | some position => queue.tasks.after position
  (tasks.filter fun task => task.shareGroup = shareGroup ∧ task.sharedTaskID ≠ UUID.nil).map
    shareGroupTaskFromDeliveryTask

inductive RollbackAction where
  | readCursor (failed : Bool)
  | readTasks (failed : Bool)
  /-- The first lookup of `prepareTaskRollback`. -/
  | lookUp (failed : Bool)
  /-- Its second lookup, after the wait. -/
  | recheck (failed : Bool)
  | mark (failed : Bool)
  | rollBack (failed : Bool)
  /-- The end of the loop: the queued tasks go when at least one was rolled back. -/
  | finish (failed : Bool)
  | cancel
  deriving DecidableEq

namespace GroupState

variable (shareGroup : String) (s : GroupState)

def setRollback (clientID : ClientID) (phase : RollbackPhase) : GroupState :=
  { s with rollbacks := Function.update s.rollbacks clientID phase }

@[simp] theorem setRollback_self (cid : ClientID) (phase : RollbackPhase) :
    (s.setRollback cid phase).rollbacks cid = phase := by
  simp [setRollback]

@[simp] theorem setRollback_of_ne {clientID other : ClientID} (phase : RollbackPhase)
    (hne : other ≠ clientID) :
    (s.setRollback clientID phase).rollbacks other = s.rollbacks other := by
  simp [setRollback, hne]

def rollbackStep (clientID : ClientID) : RollbackAction → Option GroupState
  | .readCursor failed =>
    match s.rollbacks clientID with
    | .idle =>
      if clientID = "" then none
      else some (s.setRollback clientID
        (if failed then .idle else .reading (s.deliveries clientID).cursor))
    | _ => none
  | .readTasks failed =>
    match s.rollbacks clientID with
    | .reading cursor =>
      some (s.setRollback clientID (if failed then .idle else
        .next (readUnackedSharedSubscriptionTasks (s.deliveries clientID) shareGroup cursor)
          false))
    | _ => none
  | .lookUp failed =>
    match s.rollbacks clientID with
    | .next (task :: rest) rolledBackAny =>
      if failed then some (s.setRollback clientID (.next rest rolledBackAny))
      else
        match s.queue.queryShareTaskByMessageID task.messageID [.pending, .processing] with
        | some processingTask =>
          some (s.setRollback clientID
            (if processingTask.status = .processing then
              .waiting task processingTask rest rolledBackAny
            else .prepared task rest rolledBackAny))
        | none => some (s.setRollback clientID (.prepared task rest rolledBackAny))
    | _ => none
  | .recheck failed =>
    match s.rollbacks clientID with
    | .waiting task processingTask rest rolledBackAny =>
      let completedTask := if failed then none else
        s.queue.queryShareTaskByMessageID task.messageID [.completed]
      some (s.setRollback clientID
        (if completedTask.isSome then .next rest rolledBackAny
        else .marking task processingTask rest rolledBackAny))
    | _ => none
  | .mark failed =>
    match s.rollbacks clientID with
    | .marking task processingTask rest rolledBackAny =>
      if failed then some (s.setRollback clientID (.next rest rolledBackAny))
      else
        let (queue, updated) := s.queue.updateShareTaskStatus processingTask.taskID .processing
          .rolledBack s.clock
        some (({ s with queue := queue } : GroupState).setRollback clientID
          (if updated then .prepared task rest rolledBackAny else .next rest rolledBackAny))
    | _ => none
  | .rollBack failed =>
    match s.rollbacks clientID with
    | .prepared task rest rolledBackAny =>
      if failed then some (s.setRollback clientID (.next rest rolledBackAny))
      else some (({ s with queue := s.queue.rollbackShareTask task s.clock } :
        GroupState).setRollback clientID (.next rest true))
    | _ => none
  | .finish failed =>
    match s.rollbacks clientID with
    | .next [] rolledBackAny =>
      some (({ s with
        deliveries := if rolledBackAny && !failed then
          s.deliveries.deleteClientSharedTasks clientID shareGroup else s.deliveries } :
        GroupState).setRollback clientID .idle)
    | _ => none
  | .cancel => some (s.setRollback clientID .idle)

end GroupState

/-! ## Publishers, timeouts and clients -/

inductive EnvironmentAction where
  | tick
  /-- A publisher takes the timestamp of a task. -/
  | begin (messageID taskID : UUID) (shareTask : Router.ShareGroupTask)
  | commit (task : ShareGroupTask)
  | abandon (task : ShareGroupTask)
  /-- `RequeueTimeoutTasks` on one task. -/
  | requeue (taskID : UUID)
  /-- One attempt of `MarkShareGroupTaskProcessed`. -/
  | complete (taskID : UUID) (oldStatus : TaskStatus)
  /-- A delivery task that does not come from this group. -/
  | enqueue (clientID : ClientID) (task : DeliveryTask)
  | acknowledge (clientID : ClientID) (position : Position)
  | expire (clientID : ClientID)

namespace GroupState

variable (shareGroup : String) (s : GroupState)

/-- Identifiers that `uuid.New` returns are not in use. -/
def Unused (taskID : UUID) : Prop :=
  (∀ task ∈ s.queue.tasks.entries, task.taskID ≠ taskID) ∧
    (∀ task ∈ s.appending, task.taskID ≠ taskID) ∧ taskID ∉ s.claimed

instance (taskID : UUID) : Decidable (s.Unused taskID) :=
  inferInstanceAs (Decidable (_ ∧ _))

def environmentStep : EnvironmentAction → Option GroupState
  | .tick => some { s with clock := s.clock + 1 }
  | .begin messageID taskID shareTask =>
    if shareTask.shareGroup = shareGroup ∧ messageID ≠ UUID.nil ∧ taskID ≠ UUID.nil ∧
        s.Unused taskID then
      some { s with
        appending := newPendingShareGroupTask s.clock messageID taskID shareTask :: s.appending }
    else none
  | .commit task =>
    if task ∈ s.appending then
      some { s with
        queue := s.queue.appendShareTask task
        appending := s.appending.erase task }
    else none
  | .abandon task => some { s with appending := s.appending.erase task }
  | .requeue taskID =>
    some { s with
      queue := (s.queue.updateShareTaskStatus taskID .processing .pending s.clock).1 }
  | .complete taskID oldStatus =>
    some { s with
      queue := (s.queue.updateShareTaskStatus taskID oldStatus .completed s.clock).1 }
  | .enqueue clientID task =>
    if task.shareGroup ≠ shareGroup ∧ s.FreshIn clientID task.taskID then
      some { s with deliveries := s.deliveries.appendClientTask clientID task }
    else none
  | .acknowledge clientID position =>
    some { s with deliveries := s.deliveries.advanceClientCursor clientID position }
  | .expire clientID => some { s with deliveries := s.deliveries.deleteClientState clientID }

end GroupState

/-! ## The system -/

inductive GroupLabel where
  | consumer (action : ConsumerAction)
  | rollback (clientID : ClientID) (action : RollbackAction)
  | environment (action : EnvironmentAction)

def shareGroupSystem (shareGroup : String) : System GroupState GroupLabel where
  step s
    | .consumer action => s.consumerStep shareGroup action
    | .rollback clientID action => s.rollbackStep shareGroup clientID action
    | .environment action => s.environmentStep shareGroup action

/-! ## Scripts of common runs -/

namespace GroupLabel

variable (shareGroup : String)

def routed : Router.ShareGroupTask where
  shareGroup := shareGroup
  topicFilter := "a"
  deliveryQoS := 1
  publishQoS := 1
  publisherClient := "publisher"
  subscriptionIDs := []
  winnerNoLocal := false
  winnerRAP := false

def begins (messageID taskID : UUID) : GroupLabel :=
  .environment (.begin messageID taskID (routed shareGroup))

def commits (ts : Nat) (messageID taskID : UUID) : GroupLabel :=
  .environment (.commit (newPendingShareGroupTask ts messageID taskID (routed shareGroup)))

def online (clientID : ClientID) : OnlineShareGroupMember where
  shareGroup := shareGroup
  clientID := clientID
  topicFilter := "a"
  ownerNodeID := 1

def grants (_ : ClientID) : Option ResolvedClientOptions :=
  some { deliveryQoS := 1, subscriptionIDs := [], noLocal := false, rap := false }

/-- The next task of the batch is claimed and a delivery task appended for the first member. -/
def assignsTo (members : List ClientID) (deliveryTaskID : UUID) : List GroupLabel :=
  [.consumer (.claim false true), .consumer (.candidates (members.map (online shareGroup))),
    .consumer (.assign grants (some deliveryTaskID))]

end GroupLabel

end SkyTree.SharedSubscription
