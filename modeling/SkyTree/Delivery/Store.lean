import SkyTree.Foundation.OrderedLog
import SkyTree.Mqtt.Packet

/-!
# The delivery store

Per client the store keeps delivery tasks in key order, the key being the enqueue
timestamp followed by the task identifier, and one persisted cursor. Every
operation is one transaction over an ordered key space. Appending is refused for
a message that is still queued, so a queue never holds two tasks of one message.
-/

namespace SkyTree.Delivery

open Foundation List

/-- Timestamp in nanoseconds, then task identifier. -/
abbrev Position := Nat ×ₗ UUID

/-- Where a client without a cursor starts to read. -/
def beforeAllTasks : Position := toLex (0, UUID.nil)

theorem beforeAllTasks_le (position : Position) : beforeAllTasks ≤ position := by
  rw [Prod.Lex.le_iff]
  rcases Nat.eq_zero_or_pos (ofLex position).1 with hz | hp
  · exact .inr ⟨hz.symm, Nat.zero_le _⟩
  · exact .inl hp

structure DeliveryTask where
  ts : Nat
  taskID : UUID
  messageID : UUID
  deliveryQoS : Int
  generation : Int := 0
  subscriptionIDs : List Int := []
  noLocal : Bool := false
  retainAsPublished : Bool := false
  shareGroup : String := ""
  sharedTaskID : UUID := UUID.nil
  deriving DecidableEq, Repr

def DeliveryTask.position (task : DeliveryTask) : Position := toLex (task.ts, task.taskID)

structure ClientQueue where
  tasks : OrderedLog DeliveryTask.position
  cursor : Option Position
  deduplicated : (tasks.entries.map DeliveryTask.messageID).Nodup

namespace ClientQueue

def empty : ClientQueue := ⟨.empty, none, nodup_nil⟩

instance : DecidableEq ClientQueue := fun a b =>
  decidable_of_iff (a.tasks = b.tasks ∧ a.cursor = b.cursor) (by
    constructor
    · rintro ⟨sameTasks, sameCursor⟩
      cases a
      cases b
      congr
    · rintro rfl
      exact ⟨rfl, rfl⟩)

variable (queue : ClientQueue)

theorem eq_of_messageID_eq {a b : DeliveryTask} (ha : a ∈ queue.tasks)
    (hb : b ∈ queue.tasks) (he : a.messageID = b.messageID) : a = b :=
  inj_on_of_nodup_map queue.deduplicated ha hb he

variable (p : DeliveryTask → Bool)

def restrict : ClientQueue :=
  ⟨queue.tasks.filter p, queue.cursor,
    queue.deduplicated.sublist (filter_sublist.map DeliveryTask.messageID)⟩

@[simp] theorem restrict_tasks : (queue.restrict p).tasks = queue.tasks.filter p := rfl

@[simp] theorem restrict_cursor : (queue.restrict p).cursor = queue.cursor := rfl

def deliveryTaskExists (messageID : UUID) : Bool :=
  queue.tasks.entries.any fun task => task.messageID == messageID

variable {queue : ClientQueue}

theorem deliveryTaskExists_eq_false_iff {messageID : UUID} :
    queue.deliveryTaskExists messageID = false ↔
      ∀ task ∈ queue.tasks, task.messageID ≠ messageID := by
  simp [deliveryTaskExists, OrderedLog.mem_def]

def insertTask (queue : ClientQueue) (task : DeliveryTask)
    (absent : queue.deliveryTaskExists task.messageID = false) : ClientQueue where
  tasks := queue.tasks.insert task
  cursor := queue.cursor
  deduplicated := by
    have fresh := deliveryTaskExists_eq_false_iff.mp absent
    have kept := queue.deduplicated
    simp only [OrderedLog.insert, map_append, map_cons]
    have before := kept.sublist
      ((filter_sublist (p := fun w => decide (w.position < task.position))).map
        DeliveryTask.messageID)
    have after := kept.sublist
      ((filter_sublist (p := fun w => decide (task.position < w.position))).map
        DeliveryTask.messageID)
    refine List.Nodup.append before (nodup_cons.mpr ⟨?_, after⟩) ?_
    · intro inTail
      obtain ⟨other, member, same⟩ := mem_map.mp inTail
      exact fresh other (mem_filter.mp member).1 same
    · intro messageID inFront inRest
      obtain ⟨a, frontMember, rfl⟩ := mem_map.mp inFront
      rcases mem_cons.mp inRest with same | inTail
      · exact fresh a (mem_filter.mp frontMember).1 same
      · obtain ⟨b, tailMember, same⟩ := mem_map.mp inTail
        obtain ⟨aStored, below⟩ := mem_filter.mp frontMember
        obtain ⟨bStored, above⟩ := mem_filter.mp tailMember
        have order : a.position < b.position :=
          (of_decide_eq_true below).trans (of_decide_eq_true above)
        exact order.ne (congrArg _ (queue.eq_of_messageID_eq aStored bStored same.symm))

/-- `updateAppendTask`: a message that is still queued is not queued again. -/
def appendTask (queue : ClientQueue) (task : DeliveryTask) : ClientQueue × Bool :=
  match absent : queue.deliveryTaskExists task.messageID with
  | true => (queue, false)
  | false => (queue.insertTask task absent, true)

variable {task : DeliveryTask}

theorem appendTask_tasks_of_absent (ha : queue.deliveryTaskExists task.messageID = false) :
    (queue.appendTask task).1.tasks = queue.tasks.insert task := by
  unfold appendTask
  split
  next present => simp [ha] at present
  next => rfl

theorem appendTask_of_present (hp : queue.deliveryTaskExists task.messageID = true) :
    queue.appendTask task = (queue, false) := by
  unfold appendTask
  split
  next => rfl
  next ha => simp [hp] at ha

theorem mem_of_mem_appendTask {stored : DeliveryTask}
    (hm : stored ∈ (queue.appendTask task).1.tasks) : stored = task ∨ stored ∈ queue.tasks := by
  cases hp : queue.deliveryTaskExists task.messageID with
  | true =>
    rw [appendTask_of_present hp] at hm
    exact .inr hm
  | false =>
    rw [appendTask_tasks_of_absent hp, OrderedLog.mem_insert] at hm
    exact hm.imp_right And.left

theorem deliveryTaskExists_appendTask (queue : ClientQueue) (task : DeliveryTask) :
    (queue.appendTask task).1.deliveryTaskExists task.messageID = true := by
  cases hp : queue.deliveryTaskExists task.messageID with
  | true => rw [appendTask_of_present hp, hp]
  | false =>
    have hq : task ∈ (queue.appendTask task).1.tasks := by
      rw [appendTask_tasks_of_absent hp, OrderedLog.mem_insert]
      exact .inl rfl
    exact any_eq_true.mpr ⟨task, hq, beq_self_eq_true _⟩

theorem appendTask_snd (queue : ClientQueue) (task : DeliveryTask) :
    (queue.appendTask task).2 = !queue.deliveryTaskExists task.messageID := by
  unfold appendTask
  split
  next present => simp [present]
  next ha => simp [ha]

@[simp] theorem appendTask_cursor (queue : ClientQueue) (task : DeliveryTask) :
    (queue.appendTask task).1.cursor = queue.cursor := by
  unfold appendTask
  split <;> rfl

/-- The cursor moves forward only. -/
def deliveryPositionAfter (position : Position) (current : Option Position) : Bool :=
  match current with
  | none => true
  | some current => decide (current < position)

/-- `updateAdvanceCursor`: moving the cursor deletes every task up to it. -/
def advanceCursor (queue : ClientQueue) (position : Position) : ClientQueue × Bool :=
  if deliveryPositionAfter position queue.cursor then
    ({ queue.restrict (fun task => decide (position < task.position)) with
        cursor := some position }, true)
  else (queue, false)

def Passed (queue : ClientQueue) (position : Position) : Prop :=
  ∃ cursor, queue.cursor = some cursor ∧ position ≤ cursor

instance (queue : ClientQueue) (position : Position) : Decidable (queue.Passed position) :=
  match found : queue.cursor with
  | none => isFalse fun ⟨_, same, _⟩ => by simp [found] at same
  | some cursor => decidable_of_iff (position ≤ cursor)
      ⟨fun below => ⟨cursor, found, below⟩, fun ⟨_, same, below⟩ => by
        rw [found] at same
        cases same
        exact below⟩

variable {tgt : Position}

theorem passed_advanceCursor_iff {pos : Position} :
    (queue.advanceCursor tgt).1.Passed pos ↔ queue.Passed pos ∨ pos ≤ tgt := by
  unfold advanceCursor deliveryPositionAfter Passed
  cases hf : queue.cursor with
  | none => simp
  | some cursor =>
    by_cases ha : cursor < tgt
    · simp only [ha, decide_true, if_true]
      constructor
      · rintro ⟨_, he, hb⟩
        cases he
        exact .inr hb
      · rintro (⟨_, he, hb⟩ | hb)
        · cases he
          exact ⟨_, rfl, hb.trans ha.le⟩
        · exact ⟨_, rfl, hb⟩
    · simp only [ha, decide_false, Bool.false_eq_true, if_false, hf]
      constructor
      · exact .inl
      · rintro (hp | hb)
        · exact hp
        · exact ⟨cursor, rfl, hb.trans (not_lt.mp ha)⟩

theorem mem_advanceCursor : task ∈ (queue.advanceCursor tgt).1.tasks ↔ task ∈ queue.tasks ∧
        (deliveryPositionAfter tgt queue.cursor = true → tgt < task.position) := by
  unfold advanceCursor
  by_cases hm : deliveryPositionAfter tgt queue.cursor = true <;> simp [hm]

theorem mem_of_mem_advanceCursor (hm : task ∈ (queue.advanceCursor tgt).1.tasks) :
    task ∈ queue.tasks :=
  (mem_advanceCursor.mp hm).1

theorem mem_advanceCursor_of_lt (hm : task ∈ queue.tasks) (ha : tgt < task.position) :
    task ∈ (queue.advanceCursor tgt).1.tasks :=
  mem_advanceCursor.mpr ⟨hm, fun _ => ha⟩

variable (queue : ClientQueue)

theorem after_advanceCursor (position : Position) :
    (queue.advanceCursor position).1.tasks.after position = queue.tasks.after position := by
  unfold advanceCursor
  split
  · simp [OrderedLog.after, OrderedLog.dropThrough, OrderedLog.filter, filter_filter]
  · rfl

/-- `lookupDeliveryTasks`: the tasks strictly after a position, at most `limit`. -/
def readTasks (position : Position) (limit : Nat) : List DeliveryTask :=
  (queue.tasks.after position).take limit

def deleteSharedTasks (shareGroup : String) : ClientQueue :=
  queue.restrict fun task => !(task.shareGroup == shareGroup && task.sharedTaskID != UUID.nil)

def unackedSharedTasks (shareGroup : String) : List DeliveryTask :=
  (match queue.cursor with
    | none => queue.tasks.entries
    | some cursor => queue.tasks.after cursor).filter
      fun task => task.shareGroup == shareGroup && task.sharedTaskID != UUID.nil

end ClientQueue

abbrev DeliveryStore := ClientID → ClientQueue

namespace DeliveryStore

variable (store : DeliveryStore)

/-- `DeleteClientState`: tasks and cursor go, whoever asks. -/
def deleteClientState (clientID : ClientID) : DeliveryStore :=
  Function.update store clientID .empty

@[simp] theorem deleteClientState_self (cid : ClientID) :
    deleteClientState store cid cid = .empty := by
  simp [deleteClientState]

@[simp] theorem deleteClientState_of_ne {clientID other : ClientID}
    (hne : other ≠ clientID) : deleteClientState store clientID other = store other := by
  simp [deleteClientState, hne]

/-- `AppendClientTask`: the task goes to the client's queue unless its message is there. -/
def appendClientTask (clientID : ClientID) (task : DeliveryTask) :
    DeliveryStore :=
  Function.update store clientID ((store clientID).appendTask task).1

@[simp] theorem appendClientTask_self (cid : ClientID) (task : DeliveryTask) :
    appendClientTask store cid task cid = ((store cid).appendTask task).1 := by
  simp [appendClientTask]

@[simp] theorem appendClientTask_of_ne {clientID other : ClientID}
    (task : DeliveryTask) (hne : other ≠ clientID) :
    appendClientTask store clientID task other = store other := by
  simp [appendClientTask, hne]

theorem appendClientTask_cases (cid o : ClientID) (task : DeliveryTask) :
    appendClientTask store cid task o = store o ∨
      (o = cid ∧ (store o).deliveryTaskExists task.messageID = false ∧
        appendClientTask store cid task o = ((store o).appendTask task).1) := by
  by_cases own : o = cid
  · subst own
    cases hp : (store o).deliveryTaskExists task.messageID with
    | true =>
      left
      rw [appendClientTask_self, ClientQueue.appendTask_of_present hp]
    | false => exact .inr ⟨rfl, rfl, appendClientTask_self _ _ _⟩
  · exact .inl (appendClientTask_of_ne _ _ own)

def advanceClientCursor (clientID : ClientID) (position : Position) :
    DeliveryStore :=
  Function.update store clientID ((store clientID).advanceCursor position).1

def deleteClientSharedTasks (clientID : ClientID) (shareGroup : String) :
    DeliveryStore :=
  Function.update store clientID ((store clientID).deleteSharedTasks shareGroup)

end DeliveryStore

end SkyTree.Delivery
