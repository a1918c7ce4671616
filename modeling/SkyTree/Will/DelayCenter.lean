import SkyTree.Foundation.KeyedTable
import SkyTree.Mqtt.Packet
import SkyTree.Will.IndexedQueue

/-!
# The Will-delay center

One task per client and owner token tells the scanner when a Will is due. The core keeps the
tasks in a map by the text key of client and owner token and, beside it, an indexed heap ordered
by the scheduled time. The center is a core whose map and heap are in step.
-/

namespace SkyTree.Will

open Foundation Foundation.IndexedHeap KeyedTable List Function

/-- `scheduledPublishTime` counts microseconds. -/
structure WillDelayTask where
  clientID : ClientID
  scheduledPublishTime : Int
  ownerToken : OwnerToken
  deriving DecidableEq, Repr

def willDelayTaskKeySeparator : String := "\x00"

def taskKeyFromParts (clientID : ClientID) (ownerToken : OwnerToken) : String :=
  if ownerToken = "" then clientID else clientID ++ willDelayTaskKeySeparator ++ ownerToken

def taskKey (task : WillDelayTask) : String := taskKeyFromParts task.clientID task.ownerToken

def validateTaskForAdd (task : WillDelayTask) : Except String Unit :=
  if task.clientID = "" then .error "will delay task client id is required"
  else if task.ownerToken = "" then .error "will delay task owner token is required"
  else .ok ()

theorem validateTaskForAdd_eq_ok {task : WillDelayTask} :
    validateTaskForAdd task = .ok () ↔ task.clientID ≠ "" ∧ task.ownerToken ≠ "" := by
  unfold validateTaskForAdd
  by_cases unnamed : task.clientID = ""
  · simp [unnamed]
  · by_cases blank : task.ownerToken = "" <;> simp [unnamed, blank]

structure DelayCore where
  tasks : KeyedTable taskKey := .empty
  dueTasks : IndexedQueue String WillDelayTask := {}

abbrev DueSwaps := Swaps (Entry.rank : Entry String WillDelayTask → Int ×ₗ Nat)

namespace DelayCore

variable (swaps : DueSwaps) (core : DelayCore)

def put (task : WillDelayTask) : DelayCore where
  tasks := core.tasks.upsert task
  dueTasks := core.dueTasks.upsert swaps (taskKey task) task.scheduledPublishTime task

def addTask (task : WillDelayTask) : Except String DelayCore :=
  (validateTaskForAdd task).map fun _ => core.put swaps task

def deleteTaskKeyUnsafe (key : String) : DelayCore where
  tasks := core.tasks.erase key
  dueTasks := core.dueTasks.remove swaps key

/-- Every task of the client goes, whichever owner scheduled it. -/
def deleteTask (clientID : ClientID) : DelayCore :=
  ((core.tasks.entries.filter fun task => task.clientID = clientID).map taskKey).foldl
    (deleteTaskKeyUnsafe swaps) core

def deleteTaskByOwner (clientID : ClientID) (ownerToken : OwnerToken) : DelayCore :=
  if ownerToken = "" then core.deleteTask swaps clientID
  else core.deleteTaskKeyUnsafe swaps (taskKeyFromParts clientID ownerToken)

def getDueTasks (nowUnixMicro : Int) : List WillDelayTask :=
  core.dueTasks.valuesAtOrBefore nowUnixMicro

/-- The heap holds the tasks of the map under their keys and times. -/
def InStep : Prop :=
  ∃ m, core.dueTasks.Holds m ∧ (∀ key, (m.entries key).map Entry.value = core.tasks.get key) ∧
    ∀ key item, m.entries key = some item → item.priority = item.value.scheduledPublishTime

variable {core}

theorem inStep_empty : InStep {} :=
  ⟨{}, IndexedQueue.holds_empty, fun _ => rfl, nofun⟩

theorem InStep.put (inStep : core.InStep) (task : WillDelayTask) :
    (core.put swaps task).InStep := by
  obtain ⟨m, holds, values, times⟩ := inStep
  obtain ⟨seq, entries⟩ := holds.entries_upsert (taskKey task) task.scheduledPublishTime task
  refine ⟨_, holds.upsert swaps _ _ _, fun key => ?_, fun key item => ?_⟩
  · rw [entries, DelayCore.put, get_upsert, update_apply, ← values]
    split <;> rfl
  · rw [entries, update_apply]
    split
    · rintro ⟨⟩
      rfl
    · exact times key item

theorem InStep.deleteKey (inStep : core.InStep) (key : String) :
    (core.deleteTaskKeyUnsafe swaps key).InStep := by
  obtain ⟨m, holds, values, times⟩ := inStep
  refine ⟨_, holds.remove swaps key, fun k => ?_, fun k item => ?_⟩ <;>
    simp only [Ledger.apply, update_apply] <;> split
  · next same => rw [same, DelayCore.deleteTaskKeyUnsafe, get_erase_self, Option.map_none]
  · next other => rw [values, DelayCore.deleteTaskKeyUnsafe, get_erase_of_ne other]
  · rintro ⟨⟩
  · exact times k item

theorem InStep.deleteKeys (inStep : core.InStep) (keys : List String) :
    (keys.foldl (deleteTaskKeyUnsafe swaps) core).InStep ∧
      ∀ task, task ∈ (keys.foldl (deleteTaskKeyUnsafe swaps) core).tasks ↔
        task ∈ core.tasks ∧ taskKey task ∉ keys := by
  induction keys generalizing core with
  | nil => exact ⟨inStep, fun task => by simp⟩
  | cons key rest ih =>
    obtain ⟨after, kept⟩ := ih (inStep.deleteKey swaps key)
    refine ⟨after, fun task => (kept task).trans ?_⟩
    rw [deleteTaskKeyUnsafe, mem_erase, mem_cons, not_or, and_assoc]

theorem InStep.deleteTask (inStep : core.InStep) (clientID : ClientID) :
    (core.deleteTask swaps clientID).InStep ∧
      ∀ task, task ∈ (core.deleteTask swaps clientID).tasks ↔
        task ∈ core.tasks ∧ task.clientID ≠ clientID := by
  obtain ⟨after, kept⟩ := inStep.deleteKeys swaps
    ((core.tasks.entries.filter fun task => task.clientID = clientID).map taskKey)
  refine ⟨after, fun task => (kept task).trans (and_congr_right fun member => not_congr ?_)⟩
  simp only [mem_map, List.mem_filter, decide_eq_true_eq]
  constructor
  · rintro ⟨other, ⟨stored, own⟩, same⟩
    rwa [← core.tasks.eq_of_key_eq stored member same]
  · exact fun own => ⟨task, ⟨member, own⟩, rfl⟩

theorem InStep.getDueTasks_spec (inStep : core.InStep) (now : Int) :
    (core.getDueTasks now).Nodup ∧ (core.getDueTasks now).Pairwise
        (fun a b => a.scheduledPublishTime ≤ b.scheduledPublishTime) ∧
      ∀ task, task ∈ core.getDueTasks now ↔
        task ∈ core.tasks ∧ task.scheduledPublishTime ≤ now := by
  obtain ⟨m, holds, values, times⟩ := inStep
  obtain ⟨due, eq, distinct, sorted, mem⟩ := IndexedQueue.valuesAtOrBefore_spec holds.sound now
  have stored (item) (member : item ∈ due) : m.entries item.key = some item :=
    (holds.mem _ item).mpr ⟨((mem item).mp member).1, rfl⟩
  have found (item) (member : item ∈ due) : core.tasks.get item.key = some item.value := by
    rw [← values, stored item member, Option.map_some]
  rw [getDueTasks, eq]
  refine ⟨distinct.map_on fun a first b second same => ?_, ?_, fun task => ?_⟩
  · have key : a.key = b.key := by
      rw [← (get_eq_some_iff.mp (found a first)).2, same, (get_eq_some_iff.mp (found b second)).2]
    exact Option.some.inj ((stored a first).symm.trans (key ▸ stored b second))
  · refine pairwise_map.mpr (sorted.imp_of_mem fun first second notAfter => ?_)
    rw [← times _ _ (stored _ first), ← times _ _ (stored _ second)]
    exact Entry.priority_le _ _ notAfter
  · rw [mem_map]
    constructor
    · rintro ⟨item, member, rfl⟩
      exact ⟨(get_eq_some_iff.mp (found item member)).1,
        times _ _ (stored item member) ▸ ((mem item).mp member).2⟩
    · rintro ⟨member, due⟩
      have scheduled := values (taskKey task)
      rw [get_eq_some_iff.mpr ⟨member, rfl⟩, Option.map_eq_some_iff] at scheduled
      obtain ⟨item, listed, rfl⟩ := scheduled
      exact ⟨item, (mem item).mpr ⟨((holds.mem _ item).mp listed).1,
        (times _ _ listed).trans_le due⟩, rfl⟩

end DelayCore

structure DelayCenter where
  core : DelayCore
  inStep : core.InStep
  valid : ∀ task ∈ core.tasks, validateTaskForAdd task = .ok ()

namespace DelayCenter

instance : Membership WillDelayTask DelayCenter := ⟨fun center task => task ∈ center.core.tasks⟩

def empty : DelayCenter where
  core := {}
  inStep := DelayCore.inStep_empty
  valid task member := absurd member (not_mem_empty task)

def dueSwaps : DueSwaps := .sifting _

section

variable (center : DelayCenter)

def addTask (task : WillDelayTask) : Except String DelayCenter :=
  match valid : validateTaskForAdd task with
  | .error err => .error err
  | .ok () => .ok
    { core := center.core.put dueSwaps task
      inStep := center.inStep.put dueSwaps task
      valid := by
        intro other member
        rcases mem_upsert.mp member with ⟨stored, -⟩ | rfl
        · exact center.valid other stored
        · exact valid }

def deleteTask (clientID : ClientID) : DelayCenter where
  core := center.core.deleteTask dueSwaps clientID
  inStep := (center.inStep.deleteTask dueSwaps clientID).1
  valid task member :=
    center.valid task (((center.inStep.deleteTask dueSwaps clientID).2 task).mp member).1

def deleteTaskByOwner (clientID : ClientID) (ownerToken : OwnerToken) : DelayCenter :=
  if ownerToken = "" then center.deleteTask clientID
  else
    { core := center.core.deleteTaskKeyUnsafe dueSwaps (taskKeyFromParts clientID ownerToken)
      inStep := center.inStep.deleteKey dueSwaps _
      valid task member := center.valid task (mem_erase.mp member).1 }

def getDueTasks (nowUnixMicro : Int) : List WillDelayTask := center.core.getDueTasks nowUnixMicro

end

section Lemmas

variable {cen next : DelayCenter} {task other : WillDelayTask}

theorem tokened (member : task ∈ cen) : task.ownerToken ≠ "" :=
  (validateTaskForAdd_eq_ok.mp (cen.valid task member)).2

theorem named (member : task ∈ cen) : task.clientID ≠ "" :=
  (validateTaskForAdd_eq_ok.mp (cen.valid task member)).1

theorem eq_of_parts (first : task ∈ cen) (second : other ∈ cen)
    (client : other.clientID = task.clientID) (token : other.ownerToken = task.ownerToken) :
    other = task :=
  cen.core.tasks.eq_of_key_eq second first (by rw [taskKey, taskKey, client, token])

theorem addTask_of_valid (isNamed : task.clientID ≠ "") (isTokened : task.ownerToken ≠ "") :
    ∃ next, cen.addTask task = .ok next := by
  unfold addTask
  split
  · rename_i refused
    rw [validateTaskForAdd_eq_ok.mpr ⟨isNamed, isTokened⟩] at refused
    cases refused
  · exact ⟨_, rfl⟩

theorem mem_of_addTask (added : cen.addTask task = .ok next) :
    other ∈ next ↔ (other ∈ cen ∧ taskKey other ≠ taskKey task) ∨ other = task := by
  unfold addTask at added
  split at added
  · cases added
  · obtain rfl := Except.ok.inj added
    exact mem_upsert

theorem mem_deleteTaskByOwner (member : task ∈ cen) :
    other ∈ cen.deleteTaskByOwner task.clientID task.ownerToken ↔ other ∈ cen ∧ other ≠ task := by
  rw [deleteTaskByOwner, if_neg (tokened member)]
  refine mem_erase.trans (and_congr_right fun stored => not_congr ⟨fun same => ?_, ?_⟩)
  · exact cen.core.tasks.eq_of_key_eq stored member same
  · rintro rfl
    rfl

@[simp] theorem mem_getDueTasks {nowUnixMicro : Int} : task ∈ cen.getDueTasks nowUnixMicro ↔
    task ∈ cen ∧ task.scheduledPublishTime ≤ nowUnixMicro :=
  (cen.inStep.getDueTasks_spec nowUnixMicro).2.2 task

theorem nodup_getDueTasks (nowUnixMicro : Int) : (cen.getDueTasks nowUnixMicro).Nodup :=
  (cen.inStep.getDueTasks_spec nowUnixMicro).1

end Lemmas

end DelayCenter

end SkyTree.Will
