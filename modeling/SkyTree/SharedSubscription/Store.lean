import SkyTree.Delivery.Store

/-!
# The share-group store

Per share group the store keeps tasks in key order, the key being the timestamp a task
was queued at followed by its identifier, and the cursor of the group's consumer. A
status change is one transaction that looks a task up by its identifier; a task that
becomes pending again moves to a new key.
-/

namespace SkyTree.SharedSubscription

open Foundation Delivery OrderedLog

inductive TaskStatus where
  | pending
  | processing
  | completed
  | rolledBack
  deriving DecidableEq, Repr

/-- The subscription identifiers are the numbers of the JSON array of the source. -/
structure ShareGroupTask where
  taskID : UUID
  shareGroup : String
  topicFilter : String := ""
  messageID : UUID
  deliveryQoS : Int
  publishQoS : Int := 0
  publisherClient : ClientID := ""
  subscriptionIDs : List Int := []
  winnerNoLocal : Bool := false
  winnerRAP : Bool := false
  status : TaskStatus := .pending
  processedByNode : Nat := 0
  processedAtNano : Int := 0
  rollbackReason : String := ""
  timestamp : Nat
  deriving DecidableEq, Repr

def ShareGroupTask.position (task : ShareGroupTask) : Position :=
  toLex (task.timestamp, task.taskID)

/-- The task as `setShareTaskStatus` writes it: becoming pending gives it a new timestamp. -/
def ShareGroupTask.withStatus (task : ShareGroupTask) (newStatus : TaskStatus) (now : Nat) :
    ShareGroupTask :=
  match newStatus with
  | .pending =>
    { task with status := .pending, timestamp := now, processedAtNano := 0, processedByNode := 0 }
  | _ => { task with status := newStatus, processedAtNano := now }

section WithStatus

variable (task : ShareGroupTask) (newStatus : TaskStatus) (now : Nat)

@[simp] theorem ShareGroupTask.withStatus_taskID :
    (task.withStatus newStatus now).taskID = task.taskID := by
  cases newStatus <;> rfl

@[simp] theorem ShareGroupTask.withStatus_messageID :
    (task.withStatus newStatus now).messageID = task.messageID := by
  cases newStatus <;> rfl

@[simp] theorem ShareGroupTask.withStatus_status :
    (task.withStatus newStatus now).status = newStatus := by
  cases newStatus <;> rfl

theorem ShareGroupTask.withStatus_position_pending :
    (task.withStatus .pending now).position = toLex (now, task.taskID) := rfl

end WithStatus

theorem ShareGroupTask.taskID_eq_of_position_eq {a b : ShareGroupTask}
    (he : a.position = b.position) : a.taskID = b.taskID :=
  congrArg (fun pos => (ofLex pos).2) he

structure ShareQueue where
  tasks : OrderedLog ShareGroupTask.position
  cursor : Option Position
  deriving DecidableEq

namespace ShareQueue

def empty : ShareQueue := ⟨.empty, none⟩

section

variable (queue : ShareQueue)

/-- `updateAppendShareTask`: the record is set at its key, whatever was there. -/
def appendShareTask (task : ShareGroupTask) : ShareQueue :=
  { queue with tasks := queue.tasks.insert task }

def tasksAfter : Option Position → List ShareGroupTask
  | none => queue.tasks.entries
  | some position => queue.tasks.after position

def readShareGroupTasks (last : Option Position) (limit : Nat) :
    List ShareGroupTask :=
  ((queue.tasksAfter last).filter fun task => task.status = .pending).take limit

/-- The first task of a message in one of the statuses; no statuses admit all. -/
def queryShareTaskByMessageID (messageID : UUID) (statuses : List TaskStatus) :
    Option ShareGroupTask :=
  queue.tasks.entries.find? fun task =>
    (statuses = [] ∨ task.status ∈ statuses) ∧ task.messageID = messageID

def findShareTask (taskID : UUID) : Option ShareGroupTask :=
  queue.tasks.entries.find? fun task => task.taskID = taskID

def setShareTaskStatus (task : ShareGroupTask) (newStatus : TaskStatus)
    (now : Nat) : ShareQueue :=
  { queue with
    tasks := (queue.tasks.erase task.position).insert (task.withStatus newStatus now) }

/-- A status change is made only from the expected status. -/
def updateShareTaskStatus (taskID : UUID) (oldStatus newStatus : TaskStatus)
    (now : Nat) : ShareQueue × Bool :=
  match queue.findShareTask taskID with
  | none => (queue, false)
  | some task =>
    if task.status ≠ oldStatus then (queue, false)
    else (queue.setShareTaskStatus task newStatus now, true)

/-- A task that is not completed becomes pending; a task that is missing is created anew. -/
def rollbackShareTask (request : ShareGroupTask) (now : Nat) : ShareQueue :=
  match queue.findShareTask request.taskID with
  | some task =>
    if task.status = .completed then queue else queue.setShareTaskStatus task .pending now
  | none =>
    queue.appendShareTask
      { request with
        status := .pending, processedByNode := 0, processedAtNano := 0, timestamp := now }

/-- `AppendShareGroupCursor` overwrites the cursor. -/
def appendCursor (position : Position) : ShareQueue :=
  { queue with cursor := some position }

end

variable {que : ShareQueue}

theorem queryShareTaskByMessageID_eq_none_iff {messageID : UUID} {statuses : List TaskStatus}
    (hs : statuses ≠ []) :
    que.queryShareTaskByMessageID messageID statuses = none ↔
      ∀ task ∈ que.tasks, task.status ∈ statuses → task.messageID ≠ messageID := by
  simp [queryShareTaskByMessageID, mem_def, hs]

theorem findShareTask_eq_none_iff {taskID : UUID} :
    que.findShareTask taskID = none ↔ ∀ task ∈ que.tasks, task.taskID ≠ taskID := by
  simp [findShareTask, mem_def]

theorem findShareTask_eq_some {taskID : UUID} {task : ShareGroupTask}
    (hf : que.findShareTask taskID = some task) :
    task ∈ que.tasks ∧ task.taskID = taskID :=
  ⟨List.mem_of_find?_eq_some hf, by simpa using List.find?_some hf⟩

/-! ## Queues whose tasks are told apart by their identifiers -/

def Distinct (queue : ShareQueue) : Prop :=
  ∀ a ∈ queue.tasks, ∀ b ∈ queue.tasks, a.taskID = b.taskID → a = b

section Distinct

variable {task other : ShareGroupTask} {now : Nat}

theorem Distinct.find (hd : que.Distinct) (hs : task ∈ que.tasks) :
    que.findShareTask task.taskID = some task := by
  cases hf : que.findShareTask task.taskID with
  | none => exact absurd rfl (findShareTask_eq_none_iff.mp hf task hs)
  | some first =>
    obtain ⟨hm, he⟩ := findShareTask_eq_some hf
    rw [hd first hm task hs he]

theorem Distinct.mem_append_iff (hf : ∀ hs ∈ que.tasks, hs.taskID ≠ task.taskID) :
    other ∈ (que.appendShareTask task).tasks ↔ other = task ∨ other ∈ que.tasks := by
  rw [appendShareTask, mem_insert]
  refine or_congr_right (and_iff_left_of_imp fun hs posEq => ?_)
  exact hf other hs (ShareGroupTask.taskID_eq_of_position_eq posEq)

theorem Distinct.mem_setStatus_iff (hd : que.Distinct) (hs : task ∈ que.tasks)
    (newStatus : TaskStatus) :
    other ∈ (que.setShareTaskStatus task newStatus now).tasks ↔
      other = task.withStatus newStatus now ∨ (other ∈ que.tasks ∧ other.taskID ≠ task.taskID) := by
  rw [setShareTaskStatus, mem_insert, mem_erase]
  constructor
  · rintro (rfl | ⟨⟨old, ha⟩, -⟩)
    · exact .inl rfl
    · exact .inr ⟨old, fun he => ha (congrArg _ (hd other old task hs he))⟩
  · rintro (rfl | ⟨old, ha⟩)
    · exact .inl rfl
    · refine .inr ⟨⟨old, fun he => ?_⟩, fun he => ?_⟩
      · exact ha (ShareGroupTask.taskID_eq_of_position_eq he)
      · have idEq := ShareGroupTask.taskID_eq_of_position_eq he
        rw [ShareGroupTask.withStatus_taskID] at idEq
        exact ha idEq

end Distinct

theorem updateShareTaskStatus_cases (que : ShareQueue) (tid : UUID)
    (oldStatus newStatus : TaskStatus) (now : Nat) :
    (que.updateShareTaskStatus tid oldStatus newStatus now = (que, false) ∧
        ∀ task, que.findShareTask tid = some task → task.status ≠ oldStatus) ∨
      ∃ task, que.findShareTask tid = some task ∧ task.status = oldStatus ∧
        que.updateShareTaskStatus tid oldStatus newStatus now =
          (que.setShareTaskStatus task newStatus now, true) := by
  unfold updateShareTaskStatus
  cases hf : que.findShareTask tid with
  | none => exact .inl ⟨rfl, nofun⟩
  | some task =>
    by_cases want : task.status = oldStatus
    · exact .inr ⟨task, rfl, want, by simp [want]⟩
    · refine .inl ⟨by simp [want], fun other he => ?_⟩
      rw [← Option.some.inj he]
      exact want

end ShareQueue

abbrev ShareStore := String → ShareQueue

namespace ShareStore

/-- The checks of `appendShareTaskRequestFromTask`. -/
def validateShareTask (task : ShareGroupTask) : Except String Unit :=
  if task.taskID = UUID.nil then .error "shared subscription taskID is empty"
  else if task.shareGroup = "" then .error "shareGroup is empty"
  else if task.messageID = UUID.nil then .error "messageID is empty"
  else .ok ()

def appendShareGroupTask (store : ShareStore) (ts : Nat) (task : ShareGroupTask) :
    Except String ShareStore :=
  match validateShareTask task with
  | .error err => .error err
  | .ok () => .ok (Function.update store task.shareGroup
      ((store task.shareGroup).appendShareTask { task with timestamp := ts }))

end ShareStore

end SkyTree.SharedSubscription
