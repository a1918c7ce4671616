import SkyTree.Delivery.Store
import SkyTree.Foundation.OrderedKeys

/-!
# Delivery tasks in the key space

The delivery store keeps the tasks of all clients and their cursors in one ordered map
from byte strings to values. A task key is the client identifier ended by a zero byte,
the timestamp in eight big-endian bytes and the sixteen bytes of the task identifier. The
reads and the trim of a client's queue are iterations over the keys with the client's
beginning.
-/

namespace SkyTree.Delivery

open Foundation List

/-- A timestamp and a task identifier, whose bytes are read as a number. -/
@[ext] structure TaskPosition where
  ts : Int
  taskID : UUID
  deriving DecidableEq

namespace TaskPosition

/-- The values of the types `int64` and `[16]byte`. -/
def InRange (position : TaskPosition) : Prop :=
  -2 ^ 63 ≤ position.ts ∧ position.ts < 2 ^ 63 ∧ position.taskID < 256 ^ 16

instance (position : TaskPosition) : Decidable position.InRange :=
  inferInstanceAs (Decidable (_ ∧ _ ∧ _))

def order (position : TaskPosition) : Int ×ₗ UUID := toLex (position.ts, position.taskID)

theorem order_lt_iff {p q : TaskPosition} :
    p.order < q.order ↔ p.ts < q.ts ∨ p.ts = q.ts ∧ p.taskID < q.taskID :=
  Prod.Lex.toLex_lt_toLex

end TaskPosition

structure TaskValue where
  messageID : UUID
  deliveryQoS : Int
  subscriptionIDs : List Int := []
  noLocal : Bool := false
  retainAsPublished : Bool := false
  shareGroup : String := ""
  sharedTaskID : UUID := UUID.nil
  deriving DecidableEq, Repr

structure StoredTask where
  clientID : List Byte
  position : TaskPosition
  value : TaskValue
  deriving DecidableEq

/-! ### Keys -/

/-- The bytes of `dq:t:`. -/
def prefixTask : List Byte := [100, 113, 58, 116, 58]

/-- The bytes of `dq:c:`. -/
def prefixCursor : List Byte := [100, 113, 58, 99, 58]

/-- The bytes of `sq:`, with which the keys of the share groups start. -/
def prefixShare : List Byte := [115, 113, 58]

def taskKeyPrefix (clientID : List Byte) : List Byte := prefixTask ++ (clientID ++ [0])

/-- The conversion of an `int64` to `uint64`. -/
def toUint64 (ts : Int) : Nat := (ts % 2 ^ 64).toNat

def ofUint64 (n : Nat) : Int := if n < 2 ^ 63 then n else n - 2 ^ 64

def taskKey (clientID : List Byte) (position : TaskPosition) : List Byte :=
  taskKeyPrefix clientID ++ (bigEndian 8 (toUint64 position.ts) ++ bigEndian 16 position.taskID)

def cursorKey (clientID : List Byte) : List Byte := prefixCursor ++ clientID

def parseTaskKey (key expectClientPrefix : List Byte) : Option TaskPosition :=
  if expectClientPrefix <+: key then
    let rest := key.drop expectClientPrefix.length
    if rest.length < 8 + 16 then none
    else some ⟨ofUint64 (ofBigEndian (rest.take 8)), ofBigEndian ((rest.drop 8).take 16)⟩
  else none

/-- An entry of the map. The time at which a cursor was written is left out. -/
inductive Record where
  | task (stored : StoredTask)
  | cursor (clientID : List Byte) (position : TaskPosition)
  | share (rest : List Byte)
  deriving DecidableEq

def Record.key : Record → List Byte
  | .task stored => taskKey stored.clientID stored.position
  | .cursor clientID _ => cursorKey clientID
  | .share rest => prefixShare ++ rest

def Record.asTask : Record → Option StoredTask
  | .task stored => some stored
  | _ => none

/-- The map, with tasks whose timestamps are not negative. -/
structure Database where
  records : OrderedLog Record.key
  inRange : ∀ stored, .task stored ∈ records → stored.position.InRange ∧ 0 ≤ stored.position.ts

def Database.tasksOf (db : Database) (clientID : List Byte) : List StoredTask :=
  (db.records.entries.filterMap Record.asTask).filter fun stored => stored.clientID = clientID

section Keys

variable {clientID : List Byte} {pos other : TaskPosition} {rec : Record}

theorem toUint64_lt (ts : Int) : toUint64 ts < 256 ^ 8 := by
  unfold toUint64
  omega

theorem toUint64_of_nonneg (hr : pos.InRange) (hp : 0 ≤ pos.ts) :
    (toUint64 pos.ts : Int) = pos.ts := by
  unfold TaskPosition.InRange at hr
  unfold toUint64
  omega

theorem ofUint64_toUint64 (hr : pos.InRange) : ofUint64 (toUint64 pos.ts) = pos.ts := by
  unfold TaskPosition.InRange at hr
  unfold ofUint64 toUint64
  split <;> omega

theorem taskKey_lt_iff (hr : pos.InRange) (range' : other.InRange) :
    taskKey clientID pos < taskKey clientID other ↔ toUint64 pos.ts < toUint64 other.ts ∨
        toUint64 pos.ts = toUint64 other.ts ∧ pos.taskID < other.taskID := by
  rw [taskKey, taskKey, append_lt_append_iff rfl, append_lt_append_iff (by simp),
    bigEndian_lt_iff (toUint64_lt _) (toUint64_lt _),
    bigEndian_injOn (toUint64_lt _) (toUint64_lt _), bigEndian_lt_iff hr.2.2 range'.2.2]
  simp

theorem taskKey_lt_iff_order (hr : pos.InRange) (hp : 0 ≤ pos.ts)
    (range' : other.InRange) (pos' : 0 ≤ other.ts) :
    taskKey clientID pos < taskKey clientID other ↔ pos.order < other.order := by
  have he := toUint64_of_nonneg hr hp
  have enc' := toUint64_of_nonneg range' pos'
  have hl : toUint64 pos.ts < toUint64 other.ts ↔ pos.ts < other.ts := by omega
  have heq : toUint64 pos.ts = toUint64 other.ts ↔ pos.ts = other.ts := by omega
  rw [taskKey_lt_iff hr range', hl, heq, TaskPosition.order_lt_iff]

theorem parseTaskKey_taskKey (hr : pos.InRange) :
    parseTaskKey (taskKey clientID pos) (taskKeyPrefix clientID) = some pos := by
  have hw : (bigEndian 16 pos.taskID).take 16 = bigEndian 16 pos.taskID :=
    take_of_length_le (by simp)
  simp [parseTaskKey, taskKey, hw, ofBigEndian_bigEndian (toUint64_lt _),
    ofBigEndian_bigEndian hr.2.2, ofUint64_toUint64 hr]

theorem asTask_of_begins (hb : taskKeyPrefix clientID <+: rec.key) :
    ∃ stored, rec = .task stored := by
  cases rec with
  | task stored => exact ⟨stored, rfl⟩
  | cursor => simp [Record.key, cursorKey, taskKeyPrefix, prefixCursor, prefixTask] at hb
  | share => simp [Record.key, taskKeyPrefix, prefixShare, prefixTask] at hb

theorem clientID_of_begins {stored : StoredTask} (free : 0 ∉ clientID)
    (noZero : 0 ∉ stored.clientID) (hb : taskKeyPrefix clientID <+: (Record.task stored).key) :
    stored.clientID = clientID := by
  rw [Record.key, taskKey, taskKeyPrefix, taskKeyPrefix, append_assoc,
    prefix_append_right_inj, append_assoc] at hb
  exact (eq_of_terminated free noZero hb).symm

theorem begins_taskKey : taskKeyPrefix clientID <+: taskKey clientID pos := prefix_append _ _

end Keys

section Tasks

variable {db : Database} {clientID : List Byte} {stored : StoredTask}

theorem mem_tasksOf : stored ∈ db.tasksOf clientID ↔
    .task stored ∈ db.records ∧ stored.clientID = clientID := by
  simp only [Database.tasksOf, mem_filter, mem_filterMap, decide_eq_true_eq, OrderedLog.mem_def]
  constructor
  · rintro ⟨⟨rec, hm, hf⟩, own⟩
    cases rec with
    | task other =>
      cases hf
      exact ⟨hm, own⟩
    | cursor | share => cases hf
  · rintro ⟨hm, own⟩
    exact ⟨⟨_, hm, rfl⟩, own⟩

theorem tasksOf_sorted (db : Database) (clientID : List Byte) :
    (db.tasksOf clientID).Pairwise fun a b => a.position.order < b.position.order := by
  refine pairwise_filter.mpr (pairwise_filterMap.mpr ?_)
  refine db.records.sorted.imp_of_mem fun {a b} memA memB hl => ?_
  rintro first fst second snd own own'
  cases a with
  | cursor | share => cases fst
  | task =>
    cases b with
    | cursor | share => cases snd
    | task =>
      cases fst
      cases snd
      obtain ⟨hr, hp⟩ := db.inRange _ memA
      obtain ⟨range', pos'⟩ := db.inRange _ memB
      rw [Record.key, Record.key, of_decide_eq_true own, of_decide_eq_true own'] at hl
      exact (taskKey_lt_iff_order hr hp range' pos').mp hl

end Tasks

/-! ### Reading tasks -/

structure ReadTasksQuery where
  clientID : List Byte
  last : TaskPosition
  limit : Int

/-- The start of the queue is asked for by the nil identifier without a positive
timestamp. -/
def deliveryTaskSeekKey (query : ReadTasksQuery) (clientPrefix : List Byte) : List Byte :=
  if query.last.taskID = UUID.nil ∧ query.last.ts ≤ 0 then clientPrefix
  else taskKey query.clientID query.last

def deliveryTaskFromItem (clientID clientPrefix seekKey : List Byte) (outLen : Nat)
    (item : Record) : Option StoredTask :=
  if outLen = 0 ∧ item.key = seekKey then none
  else
    (parseTaskKey item.key clientPrefix).bind fun position =>
      item.asTask.map fun stored => ⟨clientID, position, stored.value⟩

def collectTasks (query : ReadTasksQuery) (clientPrefix seekKey : List Byte) :
    List StoredTask → List Record → List StoredTask
  | out, [] => out
  | out, item :: rest =>
    if query.limit.toNat ≤ out.length then out
    else
      let task := deliveryTaskFromItem query.clientID clientPrefix seekKey out.length item
      collectTasks query clientPrefix seekKey (out ++ task.toList) rest

def Database.lookupDeliveryTasks (db : Database) (query : ReadTasksQuery) : List StoredTask :=
  if query.clientID = [] ∨ query.limit ≤ 0 then []
  else
    let clientPrefix := taskKeyPrefix query.clientID
    let seekKey := deliveryTaskSeekKey query clientPrefix
    collectTasks query clientPrefix seekKey []
      (db.records.scan seekKey fun key => clientPrefix.isPrefixOf key)

section Lookup

variable {query : ReadTasksQuery} {clientPrefix seekKey : List Byte}

/-- Only the first item can have the key of the position, so the loop collects the tasks
of the other items up to the limit. -/
theorem collectTasks_eq {items : List Record} {out : List StoredTask}
    (hs : items.Pairwise fun a b => a.key < b.key) (ha : ∀ item ∈ items, seekKey ≤ item.key)
    (hp : out ≠ [] → ∀ item ∈ items, item.key ≠ seekKey) :
    collectTasks query clientPrefix seekKey out items =
      out ++ ((items.filter (seekKey < ·.key)).filterMap
        (deliveryTaskFromItem query.clientID clientPrefix seekKey 1)).take
          (query.limit.toNat - out.length) := by
  induction items generalizing out with
  | nil => simp [collectTasks]
  | cons item rest ih =>
    obtain ⟨hb, sorted⟩ := pairwise_cons.mp hs
    obtain ⟨least, above⟩ := forall_mem_cons.mp ha
    have apart : ∀ other ∈ rest, other.key ≠ seekKey := fun other hm =>
      (least.trans_lt (hb other hm)).ne'
    rw [collectTasks]
    split
    · next full => rw [Nat.sub_eq_zero_of_le full, take_zero, append_nil]
    · next hr =>
      rw [ih sorted above fun _ => apart]
      by_cases hh : item.key = seekKey
      · have empty : out = [] := by
          by_contra some
          exact hp some item mem_cons_self hh
        subst empty
        simp [deliveryTaskFromItem, hh]
      · have beyond : seekKey < item.key := least.lt_of_ne' hh
        have he : deliveryTaskFromItem query.clientID clientPrefix seekKey out.length item =
            deliveryTaskFromItem query.clientID clientPrefix seekKey 1 item := by
          simp [deliveryTaskFromItem, hh]
        rw [he, filter_cons_of_pos (by simpa using beyond), filterMap_cons]
        cases deliveryTaskFromItem query.clientID clientPrefix seekKey 1 item with
        | none => simp
        | some task =>
          obtain ⟨more, left⟩ : ∃ more, query.limit.toNat - out.length = more + 1 :=
            ⟨query.limit.toNat - out.length - 1, by omega⟩
          simp [left, ← Nat.sub_sub]

theorem scan_client (db : Database) (hb : clientPrefix <+: seekKey) :
    db.records.scan seekKey (fun key => clientPrefix.isPrefixOf key) =
      db.records.entries.filter fun rec =>
        decide (seekKey ≤ rec.key) && clientPrefix.isPrefixOf rec.key := by
  refine db.records.scan_eq_filter_ge (fun k l ha beyond hv => ?_)
  rw [ isPrefixOf_iff_prefix] at hv ⊢
  refine begins_of_between hv (fun hl => ?_) beyond.not_gt
  exact not_lt_of_begins hb (ha.trans_lt hl)

theorem begins_seekKey : taskKeyPrefix query.clientID <+:
    deliveryTaskSeekKey query (taskKeyPrefix query.clientID) := by
  unfold deliveryTaskSeekKey
  split
  · exact prefix_refl _
  · exact begins_taskKey

/-- Whether the lookup goes on from the position to the task: from the start it returns
every task. -/
def ReadTasksQuery.Reaches (query : ReadTasksQuery) (task : StoredTask) : Prop :=
  query.last = ⟨0, UUID.nil⟩ ∨ query.last.order < task.position.order

instance (task : StoredTask) : Decidable (query.Reaches task) :=
  inferInstanceAs (Decidable (_ ∨ _))

theorem seekKey_lt_iff {stored : StoredTask} (hr : query.last.InRange)
    (hp : 0 ≤ query.last.ts) (range : stored.position.InRange)
    (nonneg : 0 ≤ stored.position.ts) :
    deliveryTaskSeekKey query (taskKeyPrefix query.clientID) <
        taskKey query.clientID stored.position ↔ query.Reaches stored := by
  unfold deliveryTaskSeekKey ReadTasksQuery.Reaches
  split
  · next start =>
    have first : query.last = ⟨0, UUID.nil⟩ := TaskPosition.ext (le_antisymm start.2 hp) start.1
    simp only [first, true_or, iff_true]
    refine lt_of_le_of_ne (not_lt.mp (not_lt_of_begins begins_taskKey)) fun he => ?_
    simpa [taskKey] using congrArg List.length he
  · next later =>
    have other : query.last ≠ ⟨0, UUID.nil⟩ := by
      rintro first
      simp [first] at later
    rw [taskKey_lt_iff_order hr hp range nonneg]
    simp [other]

/-- What the lookup takes from a record: the task, if it is the client's and lies ahead. -/
theorem deliveryTaskFromItem_eq {rec : Record} (hr : query.last.InRange)
    (hp : 0 ≤ query.last.ts) (free : 0 ∉ query.clientID)
    (stored : ∀ task, rec = .task task →
      (task.position.InRange ∧ 0 ≤ task.position.ts) ∧ 0 ∉ task.clientID) :
    let clientPrefix := taskKeyPrefix query.clientID
    let seekKey := deliveryTaskSeekKey query clientPrefix
    (if seekKey < rec.key ∧ clientPrefix <+: rec.key then
      deliveryTaskFromItem query.clientID clientPrefix seekKey 1 rec else none) =
    rec.asTask.filter fun task => query.Reaches task && task.clientID = query.clientID := by
  dsimp only
  by_cases hb : taskKeyPrefix query.clientID <+: rec.key
  · obtain ⟨task, rfl⟩ := asTask_of_begins hb
    obtain ⟨⟨range, nonneg⟩, noZero⟩ := stored task rfl
    obtain ⟨owner, pos, value⟩ := task
    obtain rfl : owner = query.clientID := clientID_of_begins free noZero hb
    have reads := seekKey_lt_iff hr hp range nonneg
    by_cases ha : query.Reaches ⟨query.clientID, pos, value⟩
    · rw [if_pos ⟨reads.mpr ha, hb⟩]
      simp [ha, deliveryTaskFromItem, Record.key, parseTaskKey_taskKey range, Record.asTask,
        Option.filter_some]
    · rw [if_neg fun both => ha (reads.mp both.1)]
      simp [ha, Record.asTask, Option.filter_some]
  · rw [if_neg fun both => hb both.2]
    refine (Option.filter_eq_none_iff.mpr fun task hf => ?_).symm
    cases rec with
    | cursor | share => cases hf
    | task =>
      cases hf
      simp only [Bool.and_eq_true, decide_eq_true_eq, not_and]
      intro _ own
      rw [Record.key, own] at hb
      exact absurd begins_taskKey hb

theorem lookupDeliveryTasks_eq (db : Database) (hr : query.last.InRange)
    (hp : 0 ≤ query.last.ts) (free : 0 ∉ query.clientID)
    (stored : ∀ task, .task task ∈ db.records → task.clientID ≠ [] ∧ 0 ∉ task.clientID) :
    db.lookupDeliveryTasks query =
      ((db.tasksOf query.clientID).filter query.Reaches).take query.limit.toNat := by
  unfold Database.lookupDeliveryTasks
  split
  · next refused =>
    rcases refused with hn | none
    · have empty : db.tasksOf query.clientID = [] := eq_nil_iff_forall_not_mem.mpr fun task hm => by
          obtain ⟨hm, own⟩ := mem_tasksOf.mp hm
          exact (stored task hm).1 (own.trans hn)
      simp [empty]
    · rw [Int.toNat_of_nonpos none, take_zero]
  · dsimp only
    rw [scan_client db begins_seekKey]
    have ha : ∀ item ∈ db.records.entries.filter fun rec =>
        decide (deliveryTaskSeekKey query (taskKeyPrefix query.clientID) ≤ rec.key) &&
          (taskKeyPrefix query.clientID).isPrefixOf rec.key,
        deliveryTaskSeekKey query (taskKeyPrefix query.clientID) ≤ item.key := by
      intro item hm
      simpa using (Bool.and_eq_true_iff.mp (mem_filter.mp hm).2).1
    rw [collectTasks_eq (db.records.sorted.filter _) ha (absurd rfl), nil_append,
      length_nil, Nat.sub_zero, Database.tasksOf, filter_filter, filter_filter,
      filterMap_filter, filter_filterMap]
    congr 1
    refine filterMap_congr fun rec hm => ?_
    have ht := deliveryTaskFromItem_eq hr hp free fun task he =>
      ⟨db.inRange task (he ▸ hm), (stored task (he ▸ hm)).2⟩
    refine Eq.trans (if_congr ?_ rfl rfl) ht
    simp only [Bool.and_eq_true, decide_eq_true_eq, isPrefixOf_iff_prefix]
    exact ⟨fun all => ⟨all.1, all.2.2⟩, fun hb => ⟨hb.1, hb.1.le, hb.2⟩⟩

end Lookup

def Database.pages (db : Database) (clientID : List Byte) (limit : Int) :
    Nat → TaskPosition → List StoredTask
  | 0, _ => []
  | rounds + 1, last =>
    let page := db.lookupDeliveryTasks ⟨clientID, last, limit⟩
    match page.getLast? with
    | none => []
    | some task => page ++ db.pages clientID limit rounds task.position

def Database.tasksAfter (db : Database) (clientID : List Byte) (last : TaskPosition) :
    List StoredTask :=
  (db.tasksOf clientID).filter fun task => last.order < task.position.order

section Pages

variable {db : Database} {clientID : List Byte} {last : TaskPosition} {limit : Int}

section Stored

-- a task without an identifier gets a fresh one before it is stored
variable (free : 0 ∉ clientID)
  (stored : ∀ task, .task task ∈ db.records →
    task.clientID ≠ [] ∧ 0 ∉ task.clientID ∧ task.position.taskID ≠ UUID.nil)

include free stored

theorem lookup_eq_take (range : last.InRange) (positive : 0 ≤ last.ts) :
    db.lookupDeliveryTasks ⟨clientID, last, limit⟩ =
      (db.tasksAfter clientID last).take limit.toNat := by
  rw [lookupDeliveryTasks_eq db range positive free fun task member =>
    (stored task member).imp_right And.left]
  congr 1
  refine filter_congr fun task own => decide_eq_decide.mpr ⟨fun reaches => ?_, .inr⟩
  have member := (mem_tasksOf.mp own).1
  refine reaches.elim (fun start => ?_) id
  rw [show last = _ from start]
  exact TaskPosition.order_lt_iff.mpr ((db.inRange _ member).2.lt_or_eq.imp_right
    fun same => ⟨same, Nat.pos_of_ne_zero (stored task member).2.2⟩)

theorem pages_eq (room : 0 < limit) (range : last.InRange) (positive : 0 ≤ last.ts) {rounds : Nat}
    (enough : (db.tasksAfter clientID last).length < rounds) :
    db.pages clientID limit rounds last = db.tasksAfter clientID last := by
  induction rounds generalizing last with
  | zero => omega
  | succ rounds ih =>
    have page : db.lookupDeliveryTasks ⟨clientID, last, limit⟩ = _ :=
      lookup_eq_take free stored range positive
    have sorted : (db.tasksAfter clientID last).Pairwise _ := (tasksOf_sorted db clientID).filter _
    rw [Database.pages, page]
    cases final : ((db.tasksAfter clientID last).take limit.toNat).getLast? with
    | none =>
      have empty := getLast?_eq_none_iff.mp final
      exact ((take_eq_nil_iff.mp empty).resolve_left (by omega)).symm
    | some task =>
      have listed : task ∈ db.tasksAfter clientID last := mem_of_mem_take (mem_of_getLast? final)
      obtain ⟨member, after⟩ := mem_filter.mp listed
      have ahead := of_decide_eq_true after
      obtain ⟨taskRange, taskPositive⟩ := db.inRange _ (mem_tasksOf.mp member).1
      have rest : db.tasksAfter clientID task.position =
          (db.tasksAfter clientID last).drop limit.toNat := by
        rw [← OrderedLog.filter_lt_getLast_take sorted final, Database.tasksAfter,
          Database.tasksAfter, filter_filter]
        refine filter_congr fun other _ => ?_
        rw [Bool.eq_iff_iff, Bool.and_eq_true, decide_eq_true_eq, decide_eq_true_eq]
        exact ⟨fun later => ⟨later, ahead.trans later⟩, And.left⟩
      have fewer : (db.tasksAfter clientID task.position).length < rounds := by
        rw [rest, length_drop]
        have := length_pos_of_mem listed
        omega
      dsimp only
      rw [ih taskRange taskPositive fewer, rest, take_append_drop]

/-- The lookup returns the first tasks after the position, and paging from the last task of each
page returns every later task once. -/
theorem lookup_pages_exactly (range : last.InRange) (positive : 0 ≤ last.ts) :
    (db.tasksOf clientID).Pairwise (fun a b => a.position.order < b.position.order) ∧
      db.lookupDeliveryTasks ⟨clientID, last, limit⟩ =
        (db.tasksAfter clientID last).take limit.toNat ∧
      (0 < limit → ∀ rounds, (db.tasksAfter clientID last).length < rounds →
        db.pages clientID limit rounds last = db.tasksAfter clientID last) :=
  ⟨tasksOf_sorted db clientID, lookup_eq_take free stored range positive,
    fun room _ enough => pages_eq free stored room range positive enough⟩

end Stored

end Pages

def oneTask (position : TaskPosition) (range : position.InRange ∧ 0 ≤ position.ts) : Database where
  records :=
    ⟨[.task ⟨[97], position, { messageID := 1, deliveryQoS := 1 }⟩], pairwise_singleton _ _⟩
  inRange := by
    intro stored member
    cases mem_singleton.mp member
    exact range

def threeTasks : Database where
  records := ⟨[.task ⟨[97], ⟨5, 7⟩, { messageID := 1, deliveryQoS := 1 }⟩,
    .task ⟨[97], ⟨5, 9⟩, { messageID := 2, deliveryQoS := 0 }⟩,
    .task ⟨[97, 98], ⟨5, 8⟩, { messageID := 3, deliveryQoS := 2 }⟩], by decide⟩
  inRange stored member := by
    simp only [OrderedLog.mem_def, mem_cons, not_mem_nil, or_false, Record.task.injEq] at member
    rcases member with rfl | rfl | rfl <;> decide

theorem lookup_pages_exactly_three :
    (threeTasks.pages [97] 1 3 ⟨0, UUID.nil⟩).map StoredTask.position =
    [⟨5, 7⟩, ⟨5, 9⟩] := by
  have stored : ∀ task, .task task ∈ threeTasks.records →
      task.clientID ≠ [] ∧ 0 ∉ task.clientID ∧ task.position.taskID ≠ UUID.nil := by
    intro task member
    simp only [threeTasks, OrderedLog.mem_def, mem_cons, not_mem_nil, or_false,
      Record.task.injEq] at member
    rcases member with rfl | rfl | rfl <;> decide
  have paged : threeTasks.pages [97] 1 3 ⟨0, UUID.nil⟩ = threeTasks.tasksAfter [97] ⟨0, UUID.nil⟩ :=
    (lookup_pages_exactly (by decide) stored (by decide) (by decide)).2.2 (by decide) 3 (by decide)
  rw [paged]
  decide

end SkyTree.Delivery
