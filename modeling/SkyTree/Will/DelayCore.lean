import SkyTree.Foundation.OrderedKeys
import SkyTree.Will.DelayCenter

/-!
# The delay core as a map

Whatever is added, deleted, snapshotted and recovered, the due tasks of the core are those of one
abstract map from clients and tokens to tasks.
-/

namespace SkyTree.Will

open Foundation Foundation.IndexedHeap List Function

/-- The tasks of a snapshot in the order of the iteration; invalid ones are skipped. -/
def DelayCore.recoverFromState (swaps : DueSwaps) (tasks : List WillDelayTask) : DelayCore :=
  tasks.foldl (fun core task => (core.addTask swaps task).toOption.getD core) {}

structure DelayStore where
  core : DelayCore := {}
  saved : KeyedTable taskKey := .empty

/-- A recovery iterates over the stored map in an order of its own. -/
inductive DelayCall where
  | addTask (task : WillDelayTask)
  | deleteTask (clientID : ClientID)
  | deleteTaskByOwner (clientID : ClientID) (ownerToken : OwnerToken)
  | snapshot
  | recover (order : List WillDelayTask → List WillDelayTask)
    (perm : ∀ tasks, (order tasks).Perm tasks)

def DelayStore.apply (swaps : DueSwaps) (store : DelayStore) : DelayCall → DelayStore
  | .addTask task =>
    { store with core := (store.core.addTask swaps task).toOption.getD store.core }
  | .deleteTask clientID => { store with core := store.core.deleteTask swaps clientID }
  | .deleteTaskByOwner clientID ownerToken =>
    { store with core := store.core.deleteTaskByOwner swaps clientID ownerToken }
  | .snapshot => { store with saved := store.core.tasks }
  | .recover order _ =>
    { store with core := DelayCore.recoverFromState swaps (order store.saved.entries) }

/-! ### The abstract map -/

abbrev DelayMap := ClientID × OwnerToken → Option WillDelayTask

structure AbstractDelays where
  tasks : DelayMap := fun _ => none
  saved : DelayMap := fun _ => none

def DelayMap.deleteClient (tasks : DelayMap) (clientID : ClientID) : DelayMap := fun key =>
  if key.1 = clientID then none else tasks key

def AbstractDelays.apply (delays : AbstractDelays) : DelayCall → AbstractDelays
  | .addTask task =>
    if task.clientID = "" ∨ task.ownerToken = "" then delays
    else { delays with
      tasks := update delays.tasks (task.clientID, task.ownerToken) (some task) }
  | .deleteTask clientID => { delays with tasks := delays.tasks.deleteClient clientID }
  | .deleteTaskByOwner clientID ownerToken =>
    if ownerToken = "" then { delays with tasks := delays.tasks.deleteClient clientID }
    else { delays with tasks := update delays.tasks (clientID, ownerToken) none }
  | .snapshot => { delays with saved := delays.tasks }
  | .recover .. => { delays with tasks := delays.saved }

/-! ### Recovery -/

section Recovery

variable (swaps : DueSwaps) {order : List WillDelayTask}

theorem foldl_addTask {core : DelayCore} (inStep : core.InStep)
    (valid : ∀ task ∈ order, validateTaskForAdd task = .ok ())
    (distinct : (order.map taskKey).Nodup)
    (fresh : ∀ task ∈ core.tasks, ∀ other ∈ order, taskKey task ≠ taskKey other) :
    let final := order.foldl (fun core task => (core.addTask swaps task).toOption.getD core) core
    final.InStep ∧ ∀ task, task ∈ final.tasks ↔ task ∈ core.tasks ∨ task ∈ order := by
  induction order generalizing core with
  | nil => exact ⟨inStep, fun task => by simp⟩
  | cons first rest ih =>
    obtain ⟨validFirst, validRest⟩ := forall_mem_cons.mp valid
    obtain ⟨absent, distinctRest⟩ := nodup_cons.mp distinct
    rw [foldl_cons, show (core.addTask swaps first).toOption.getD core = core.put swaps first by
      rw [DelayCore.addTask, validFirst]; rfl]
    have mem (task : WillDelayTask) : task ∈ (core.put swaps first).tasks ↔ _ :=
      KeyedTable.mem_upsert
    obtain ⟨after, kept⟩ := ih (inStep.put swaps first) validRest distinctRest
      fun task member other later => by
        rcases (mem task).mp member with ⟨stored, -⟩ | rfl
        · exact fresh task stored other (.tail _ later)
        · exact fun same => absent (same ▸ mem_map_of_mem later)
    refine ⟨after, fun task => (kept task).trans ?_⟩
    rw [mem, mem_cons, ← or_assoc]
    refine or_congr_left (or_congr_left (and_iff_left_of_imp fun stored => ?_))
    exact fresh task stored first mem_cons_self

theorem recoverFromState_spec (tasks : KeyedTable taskKey)
    (valid : ∀ task ∈ tasks, validateTaskForAdd task = .ok ()) (perm : order.Perm tasks.entries) :
    (DelayCore.recoverFromState swaps order).InStep ∧
      ∀ task, task ∈ (DelayCore.recoverFromState swaps order).tasks ↔ task ∈ tasks := by
  obtain ⟨after, kept⟩ := foldl_addTask swaps DelayCore.inStep_empty
    (fun task member => valid task (perm.mem_iff.mp member))
    ((perm.map taskKey).nodup_iff.mpr tasks.distinct)
    fun task member => absurd member (KeyedTable.not_mem_empty task)
  refine ⟨after, fun task => (kept task).trans ?_⟩
  rw [or_iff_right (KeyedTable.not_mem_empty task), perm.mem_iff]
  rfl

end Recovery

/-! ### The map behind the keys -/

def NulFree (clientID : ClientID) : Prop := '\x00' ∉ clientID.toList

theorem taskKeyFromParts_inj {a b : ClientID} {s t : OwnerToken} (freeA : NulFree a)
    (freeB : NulFree b) (tokenA : s ≠ "") (tokenB : t ≠ "") :
    taskKeyFromParts a s = taskKeyFromParts b t ↔ (a, s) = (b, t) := by
  refine ⟨fun same => ?_, fun same => by cases same; rfl⟩
  rw [taskKeyFromParts, taskKeyFromParts, if_neg tokenA, if_neg tokenB, ← String.toList_inj] at same
  simp only [String.toList_append, willDelayTaskKeySeparator] at same
  have starts : a.toList ++ ['\x00'] <+: b.toList ++ '\x00' :: t.toList :=
    ⟨s.toList, by simpa using same⟩
  obtain rfl : a = b := String.toList_inj.mp (eq_of_terminated freeA freeB starts)
  have := append_cancel_left same
  rw [String.toList_inj.mp this]

structure Represents (tasks : KeyedTable taskKey) (map : DelayMap) : Prop where
  stored : ∀ task, task ∈ tasks ↔ map (task.clientID, task.ownerToken) = some task
  keyed : ∀ key task, map key = some task → key = (task.clientID, task.ownerToken)
  valid : ∀ task ∈ tasks, validateTaskForAdd task = .ok ()
  free : ∀ task ∈ tasks, NulFree task.clientID

section Represents

variable {tasks : KeyedTable taskKey} {map : DelayMap} {task : WillDelayTask}

theorem represents_empty : Represents .empty fun _ => none :=
  ⟨fun task => iff_of_false (KeyedTable.not_mem_empty task) nofun, nofun,
    fun task member => absurd member (KeyedTable.not_mem_empty task),
    fun task member => absurd member (KeyedTable.not_mem_empty task)⟩

theorem Represents.restrict (represents : Represents tasks map) (after : KeyedTable taskKey)
    (p : ClientID × OwnerToken → Prop) [DecidablePred p]
    (kept : ∀ task, task ∈ after ↔ task ∈ tasks ∧ p (task.clientID, task.ownerToken)) :
    Represents after fun key => if p key then map key else none where
  stored task := by
    rw [kept, represents.stored]
    split <;> simp_all
  keyed key task found := represents.keyed key task (by split at found <;> simp_all)
  valid task member := represents.valid task ((kept task).mp member).1
  free task member := represents.free task ((kept task).mp member).1

theorem Represents.taskKey_eq_iff (represents : Represents tasks map) (member : task ∈ tasks)
    {clientID : ClientID} {ownerToken : OwnerToken} (free : NulFree clientID)
    (token : ownerToken ≠ "") : taskKey task = taskKeyFromParts clientID ownerToken ↔
      (task.clientID, task.ownerToken) = (clientID, ownerToken) :=
  taskKeyFromParts_inj (represents.free task member) free
    (validateTaskForAdd_eq_ok.mp (represents.valid task member)).2 token

theorem Represents.upsert (represents : Represents tasks map)
    (valid : validateTaskForAdd task = .ok ()) (free : NulFree task.clientID) :
    Represents (tasks.upsert task)
      (update map (task.clientID, task.ownerToken) (some task)) where
  stored other := by
    rw [KeyedTable.mem_upsert]
    by_cases same : (other.clientID, other.ownerToken) = (task.clientID, task.ownerToken)
    · have sameKey : taskKey other = taskKey task :=
        congrArg (fun key : ClientID × OwnerToken => taskKeyFromParts key.1 key.2) same
      rw [same, update_self, Option.some.injEq]
      exact ⟨fun either => (either.resolve_left fun both => both.2 sameKey).symm,
        fun own => .inr own.symm⟩
    · rw [update_of_ne same, ← represents.stored]
      constructor
      · rintro (⟨member, -⟩ | rfl)
        · exact member
        · exact absurd rfl same
      · intro member
        refine .inl ⟨member, fun sameKey => same ?_⟩
        exact (represents.taskKey_eq_iff member free
          (validateTaskForAdd_eq_ok.mp valid).2).mp sameKey
  keyed key other found := by
    by_cases same : key = (task.clientID, task.ownerToken)
    · rw [same, update_self] at found
      cases found
      exact same
    · rw [update_of_ne same] at found
      exact represents.keyed key other found
  valid other member := by
    rcases KeyedTable.mem_upsert.mp member with ⟨stored, -⟩ | rfl
    · exact represents.valid other stored
    · exact valid
  free other member := by
    rcases KeyedTable.mem_upsert.mp member with ⟨stored, -⟩ | rfl
    · exact represents.free other stored
    · exact free

end Represents

/-! ### Runs -/

structure DelayStore.Refines (store : DelayStore) (delays : AbstractDelays) : Prop where
  inStep : store.core.InStep
  tasks : Represents store.core.tasks delays.tasks
  saved : Represents store.saved delays.saved

/-- The client that a call names has no zero character in its identifier. -/
def DelayCall.NulFree : DelayCall → Prop
  | .addTask task => Will.NulFree task.clientID
  | .deleteTask clientID | .deleteTaskByOwner clientID _ => Will.NulFree clientID
  | .snapshot | .recover .. => True

section Runs

variable (swaps : DueSwaps) {store : DelayStore} {delays : AbstractDelays}

theorem DelayStore.Refines.deleteClient (refines : store.Refines delays) (clientID : ClientID) :
    (store.core.deleteTask swaps clientID).InStep ∧
      Represents (store.core.deleteTask swaps clientID).tasks
        (delays.tasks.deleteClient clientID) := by
  obtain ⟨inStep, kept⟩ := refines.inStep.deleteTask swaps clientID
  refine ⟨inStep, ?_⟩
  have restricted := refines.tasks.restrict _ (fun key => key.1 ≠ clientID) kept
  have eq : delays.tasks.deleteClient clientID =
      fun key => if key.1 ≠ clientID then delays.tasks key else none := by
    funext key
    simp [DelayMap.deleteClient]
  rwa [eq]

theorem DelayStore.Refines.apply (refines : store.Refines delays) {call : DelayCall}
    (free : call.NulFree) : (store.apply swaps call).Refines (delays.apply call) := by
  cases call with
  | addTask task =>
    cases valid : validateTaskForAdd task with
    | error err =>
      have refused : task.clientID = "" ∨ task.ownerToken = "" := by
        by_contra both
        rw [not_or, ← ne_eq, ← ne_eq, ← validateTaskForAdd_eq_ok, valid] at both
        cases both
      simp only [DelayStore.apply, DelayCore.addTask, valid, AbstractDelays.apply, if_pos refused]
      exact refines
    | ok =>
      obtain ⟨named, tokened⟩ := validateTaskForAdd_eq_ok.mp valid
      simp only [DelayStore.apply, DelayCore.addTask, valid, AbstractDelays.apply, named, tokened,
        or_self, if_false]
      exact ⟨refines.inStep.put swaps task, refines.tasks.upsert valid free, refines.saved⟩
  | deleteTask clientID =>
    obtain ⟨inStep, tasks⟩ := refines.deleteClient swaps clientID
    exact ⟨inStep, tasks, refines.saved⟩
  | deleteTaskByOwner clientID ownerToken =>
    simp only [DelayStore.apply, DelayCore.deleteTaskByOwner, AbstractDelays.apply]
    split
    · obtain ⟨inStep, tasks⟩ := refines.deleteClient swaps clientID
      exact ⟨inStep, tasks, refines.saved⟩
    · next tokened =>
      refine ⟨refines.inStep.deleteKey swaps _, ?_, refines.saved⟩
      have restricted := refines.tasks.restrict
        (store.core.tasks.erase (taskKeyFromParts clientID ownerToken))
        (fun key => key ≠ (clientID, ownerToken)) fun task => by
          rw [KeyedTable.mem_erase]
          exact and_congr_right fun member =>
            not_congr (refines.tasks.taskKey_eq_iff member free tokened)
      refine cast (congrArg _ (funext fun key => ?_)) restricted
      by_cases same : key = (clientID, ownerToken)
      · simp [same]
      · simp [same, update_of_ne]
  | snapshot => exact ⟨refines.inStep, refines.tasks, refines.tasks⟩
  | recover order perm =>
    obtain ⟨inStep, recovered⟩ := recoverFromState_spec swaps store.saved refines.saved.valid
      (perm store.saved.entries)
    refine ⟨inStep, ?_, refines.saved⟩
    have whole := refines.saved.restrict _ (fun _ => True) fun task =>
      (recovered task).trans (and_iff_left trivial).symm
    simp only [if_true] at whole
    exact whole

theorem refines_run (calls : List DelayCall) (free : ∀ call ∈ calls, call.NulFree)
    (refines : store.Refines delays) :
    (calls.foldl (DelayStore.apply swaps) store).Refines
      (calls.foldl AbstractDelays.apply delays) := by
  induction calls generalizing store delays with
  | nil => exact refines
  | cons call rest ih =>
    obtain ⟨first, later⟩ := forall_mem_cons.mp free
    exact ih later (refines.apply swaps first)

/-- The due tasks after any calls are those of the abstract map, each once and in order. -/
theorem getDueTasks_of_map {calls : List DelayCall} (free : ∀ call ∈ calls, call.NulFree)
    (nowUnixMicro : Int) :
    let due := (calls.foldl (DelayStore.apply swaps) {}).core.getDueTasks nowUnixMicro
    let map := (calls.foldl AbstractDelays.apply {}).tasks
    due.Nodup ∧ due.Pairwise (fun a b => a.scheduledPublishTime ≤ b.scheduledPublishTime) ∧
      ∀ task, task ∈ due ↔
        (∃ key, map key = some task) ∧ task.scheduledPublishTime ≤ nowUnixMicro := by
  have refines := refines_run swaps calls free
    (show DelayStore.Refines {} {} from
      ⟨DelayCore.inStep_empty, represents_empty, represents_empty⟩)
  obtain ⟨distinct, sorted, mem⟩ := refines.inStep.getDueTasks_spec nowUnixMicro
  refine ⟨distinct, sorted, fun task => (mem task).trans (and_congr_left' ?_)⟩
  rw [refines.tasks.stored]
  exact ⟨fun found => ⟨_, found⟩, fun ⟨key, found⟩ => refines.tasks.keyed key task found ▸ found⟩

end Runs

def twoTasks : List DelayCall :=
  [.addTask ⟨"alice", 5, "first"⟩, .addTask ⟨"bob", 3, "second"⟩, .snapshot,
    .deleteTaskByOwner "bob" "second", .recover List.reverse reverse_perm]

theorem getDueTasks_of_recovered : ⟨"bob", 3, "second"⟩ ∈
    (twoTasks.foldl (DelayStore.apply DelayCenter.dueSwaps) {}).core.getDueTasks 4 := by
  have free : ∀ call ∈ twoTasks, call.NulFree := by
    simp [twoTasks, DelayCall.NulFree, NulFree]
  refine ((getDueTasks_of_map DelayCenter.dueSwaps free 4).2.2 _).mpr
    ⟨⟨("bob", "second"), ?_⟩, by decide⟩
  simp [twoTasks, AbstractDelays.apply]

end SkyTree.Will
