import SkyTree.Delivery.Keys

/-!
# Advancing a delivery cursor

A request moves the client's cursor only forward, and a move deletes the client's tasks up
to the new position. Nothing is deleted without a move.
-/

namespace SkyTree.Delivery

open Foundation List Option OrderedLog

def Record.asCursor : Record → Option TaskPosition
  | .cursor _ position => some position
  | _ => none

/-- The identifiers are compared as sixteen bytes. -/
def deliveryPositionAfter (next : TaskPosition) : Option TaskPosition → Bool
  | none => true
  | some current =>
    if next.ts ≠ current.ts then decide (current.ts < next.ts)
    else decide (current.taskID < next.taskID)

namespace Database

def lookupDeliveryCursor (db : Database) (clientID : List Byte) : Option TaskPosition :=
  (db.records.get (cursorKey clientID)).bind Record.asCursor

def setCursor (db : Database) (clientID : List Byte) (position : TaskPosition) : Database where
  records := db.records.insert (.cursor clientID position)
  inRange stored member := by
    rcases mem_insert.mp member with same | ⟨kept, -⟩
    · cases same
    · exact db.inRange stored kept

/-- The loop stops behind the client's keys or behind the new position. -/
def deleteDeliveryTasksThroughCursor (db : Database) (clientID : List Byte)
    (last : TaskPosition) : Database :=
  let clientPrefix := taskKeyPrefix clientID
  let deleted := db.records.scan clientPrefix fun key =>
    clientPrefix.isPrefixOf key && decide (key ≤ taskKey clientID last)
  { records := db.records.filter fun record => decide (record ∉ deleted)
    inRange := fun stored member => db.inRange stored (OrderedLog.mem_filter.mp member).1 }

/-- The position of a request that passes the checks; `lastTaskID` is `none` when the text
is empty or no identifier. -/
def requestedPosition (clientID : List Byte) (request : Int × Option UUID) : Option TaskPosition :=
  if clientID = [] then none else request.2.map fun taskID => ⟨request.1, taskID⟩

/-- The new map and whether the cursor moved; `none` is an error. -/
def updateAdvanceCursor (db : Database) (clientID : List Byte) (request : Int × Option UUID) :
    Option (Database × Bool) :=
  (requestedPosition clientID request).map fun next =>
    if deliveryPositionAfter next (db.lookupDeliveryCursor clientID) then
      ((db.setCursor clientID next).deleteDeliveryTasksThroughCursor clientID next, true)
    else (db, false)

/-- The requests of a client one after the other; a failed one changes nothing. -/
def advanceAll (db : Database) (clientID : List Byte) (requests : List (Int × Option UUID)) :
    Database :=
  requests.foldl (fun db request => (db.updateAdvanceCursor clientID request).elim db Prod.fst) db

end Database

/-- The requested positions that lie beyond the cursor and everything before them. -/
def advancing : Option TaskPosition → List TaskPosition → List TaskPosition
  | _, [] => []
  | cursor, next :: rest =>
    if deliveryPositionAfter next cursor then next :: advancing (some next) rest
    else advancing cursor rest

section Positions

variable {cursor : Option TaskPosition} {next : TaskPosition} {rqd : List TaskPosition}

theorem deliveryPositionAfter_iff :
    deliveryPositionAfter next cursor = true ↔ ∀ cur ∈ cursor, cur.order < next.order := by
  cases cursor with
  | none => simp [deliveryPositionAfter]
  | some cur =>
    simp only [deliveryPositionAfter, mem_some_iff, forall_eq', TaskPosition.order_lt_iff]
    by_cases he : next.ts = cur.ts
    · simp [he]
    · simp [he, Ne.symm he]

theorem advancing_sorted (cursor : Option TaskPosition) (rqd : List TaskPosition) :
    (cursor.toList ++ advancing cursor rqd).Pairwise fun a b => a.order < b.order := by
  induction rqd generalizing cursor with
  | nil => cases cursor <;> simp [advancing]
  | cons next rest ih =>
    rw [advancing]
    split
    · next ha =>
      have hs : (next :: advancing (some next) rest).Pairwise fun a b => a.order < b.order :=
        ih (some next)
      cases cursor with
      | none => exact hs
      | some cur =>
        have first := deliveryPositionAfter_iff.mp ha cur rfl
        refine pairwise_cons.mpr ⟨forall_mem_cons.mpr ⟨first, fun move hm => ?_⟩, hs⟩
        exact first.trans ((pairwise_cons.mp hs).1 move hm)
    · exact ih cursor

theorem mem_of_mem_advancing {move : TaskPosition} (hm : move ∈ advancing cursor rqd) :
    move ∈ rqd := by
  induction rqd generalizing cursor with
  | nil => cases hm
  | cons next rest ih =>
    rw [advancing] at hm
    split at hm
    · rcases mem_cons.mp hm with rfl | hl
      · exact mem_cons_self
      · exact .tail _ (ih hl)
    · exact .tail _ (ih hm)

theorem after_getLast?_iff {moves : List TaskPosition} (next : TaskPosition)
    (hs : moves.Pairwise fun a b => a.order < b.order) :
    (∀ last ∈ moves.getLast?, last.order < next.order) ↔
      ∀ move ∈ moves, move.order < next.order := by
  constructor
  · intro ha move hm
    cases hf : moves.getLast? with
    | none =>
      rw [getLast?_eq_none_iff.mp hf] at hm
      cases hm
    | some last =>
      obtain ⟨front, rfl⟩ := getLast?_eq_some_iff.mp hf
      rcases mem_append.mp hm with early | late
      · exact ((pairwise_append.mp hs).2.2 move early last (by simp)).trans (ha last hf)
      · exact mem_singleton.mp late ▸ ha last hf
  · intro all last hf
    exact all last (mem_of_getLast? hf)

/-- The last move is the maximum of the cursor and the requests. -/
theorem max?_eq_getLast? (cursor : Option TaskPosition) (rqd : List TaskPosition) :
    ((cursor.toList ++ rqd).map TaskPosition.order).max? =
    (cursor.toList ++ advancing cursor rqd).getLast?.map TaskPosition.order := by
  induction rqd generalizing cursor with
  | nil => cases cursor <;> rfl
  | cons next rest ih =>
    cases cursor with
    | none => exact ih (some next)
    | some cur =>
      have hm : (([cur] ++ next :: rest).map TaskPosition.order).max? =
          some ((rest.map TaskPosition.order).foldl max (max cur.order next.order)) := rfl
      rw [toList_some, hm, advancing]
      split
      · next after =>
        have first := deliveryPositionAfter_iff.mp after cur rfl
        rw [max_eq_right first.le, singleton_append, getLast?_cons_cons]
        exact ih (some next)
      · next stays =>
        have first : ¬ cur.order < next.order := fun hl =>
          stays (deliveryPositionAfter_iff.mpr fun _ he => mem_some_iff.mp he ▸ hl)
        rw [max_eq_left (not_lt.mp first)]
        exact ih (some cur)

end Positions

section Steps

variable {db : Database} {cid : List Byte} {pos : TaskPosition} {rec : Record}
  {sto : StoredTask}

theorem mem_deleteThroughCursor :
    rec ∈ (db.deleteDeliveryTasksThroughCursor cid pos).records ↔ rec ∈ db.records ∧
        (taskKeyPrefix cid <+: rec.key → taskKey cid pos < rec.key) := by
  have hs : db.records.scan (taskKeyPrefix cid) (fun key =>
      (taskKeyPrefix cid).isPrefixOf key && decide (key ≤ taskKey cid pos)) =
      db.records.entries.filter fun rec => (taskKeyPrefix cid).isPrefixOf rec.key &&
        decide (rec.key ≤ taskKey cid pos) := by
    refine db.records.scan_eq_filter (fun key hv => ?_) (fun key bound ha hb hv => ?_)
    · rw [Bool.and_eq_true, isPrefixOf_iff_prefix] at hv
      exact not_lt.mp (not_lt_of_begins hv.1)
    · rw [Bool.and_eq_true, isPrefixOf_iff_prefix, decide_eq_true_eq] at hv ⊢
      exact ⟨begins_of_between hv.1 ha.not_gt hb.not_gt, hb.trans hv.2⟩
  rw [Database.deleteDeliveryTasksThroughCursor, OrderedLog.mem_filter, decide_eq_true_eq, hs,
    mem_filter, Bool.and_eq_true, isPrefixOf_iff_prefix, decide_eq_true_eq, ← not_lt]
  rw [OrderedLog.mem_def]
  tauto

theorem task_mem_setCursor :
    .task sto ∈ (db.setCursor cid pos).records ↔ .task sto ∈ db.records := by
  rw [Database.setCursor, mem_insert]
  constructor
  · rintro (he | ⟨hm, -⟩)
    · cases he
    · exact hm
  · intro hm
    refine .inr ⟨hm, fun he => ?_⟩
    simp [Record.key, taskKey, taskKeyPrefix, cursorKey, prefixTask, prefixCursor] at he

theorem lookupDeliveryCursor_eq_some_iff {owner : List Byte} :
    db.lookupDeliveryCursor owner = some pos ↔ .cursor owner pos ∈ db.records := by
  rw [Database.lookupDeliveryCursor, bind_eq_some_iff]
  constructor
  · rintro ⟨rec, hf, isCur⟩
    obtain ⟨hm, key⟩ := get_eq_some_iff.mp hf
    cases rec with
    | task | share => cases isCur
    | cursor o =>
      cases isCur
      cases append_cancel_left key
      exact hm
  · intro hm
    exact ⟨_, get_eq_some_iff.mpr ⟨hm, rfl⟩, rfl⟩

theorem lookupDeliveryCursor_move (owner : List Byte) :
    ((db.setCursor cid pos).deleteDeliveryTasksThroughCursor cid pos).lookupDeliveryCursor owner =
      if owner = cid then some pos else db.lookupDeliveryCursor owner := by
  have hk (last : TaskPosition) : .cursor owner last ∈ ((db.setCursor cid
      pos).deleteDeliveryTasksThroughCursor cid pos).records ↔
      .cursor owner last ∈ (db.setCursor cid pos).records := by
    refine mem_deleteThroughCursor.trans (and_iff_left fun hb => ?_)
    obtain ⟨_, hit⟩ := asTask_of_begins hb
    cases hit
  refine Option.ext fun last => ?_
  rw [lookupDeliveryCursor_eq_some_iff, hk, Database.setCursor, mem_insert]
  split
  · next own =>
    subst own
    simp only [Record.key, Record.cursor.injEq, true_and, ne_eq, not_true, and_false, or_false,
      Option.some.injEq, eq_comm]
  · next other =>
    rw [lookupDeliveryCursor_eq_some_iff]
    simp [Record.key, cursorKey, other]

end Steps

/-! ### Runs -/

section Runs

variable {db : Database} {clientID : List Byte}

def requestedPositions (clientID : List Byte) (requests : List (Int × Option UUID)) :
    List TaskPosition :=
  requests.filterMap (Database.requestedPosition clientID)

theorem advanceAll_spec (db : Database) (cid : List Byte) (reqs : List (Int × Option UUID)) :
    let moves := advancing (db.lookupDeliveryCursor cid) (requestedPositions cid reqs)
    let final := db.advanceAll cid reqs
    final.lookupDeliveryCursor cid = ((db.lookupDeliveryCursor cid).toList ++ moves).getLast? ∧
      (∀ o, o ≠ cid → final.lookupDeliveryCursor o = db.lookupDeliveryCursor o) ∧
      ∀ sto, .task sto ∈ final.records ↔ .task sto ∈ db.records ∧
        (taskKeyPrefix cid <+: (Record.task sto).key →
          ∀ move ∈ moves, taskKey cid move < (Record.task sto).key) := by
  induction reqs generalizing db with
  | nil =>
    refine ⟨?_, fun _ _ => rfl, fun _ => ?_⟩
    · cases h : db.lookupDeliveryCursor cid <;> simp [Database.advanceAll, advancing,
        requestedPositions, h]
    · simp [Database.advanceAll, advancing, requestedPositions]
  | cons req rest ih =>
    simp only [Database.advanceAll, foldl_cons, requestedPositions, filterMap_cons,
      Database.updateAdvanceCursor]
    cases Database.requestedPosition cid req with
    | none => exact ih db
    | some next =>
      simp only [map_some, elim_some, advancing]
      split
      · next after =>
        obtain ⟨own, ho, ht⟩ := ih ((db.setCursor cid
          next).deleteDeliveryTasksThroughCursor cid next)
        rw [lookupDeliveryCursor_move, if_pos rfl] at own ht
        refine ⟨?_, fun o hne => ?_, fun sto => ?_⟩
        · refine own.trans ?_
          cases db.lookupDeliveryCursor cid with
          | none => rfl
          | some cur => exact getLast?_cons_cons.symm
        · exact (ho o hne).trans (by rw [lookupDeliveryCursor_move, if_neg hne])
        · refine (ht sto).trans ?_
          rw [mem_deleteThroughCursor, task_mem_setCursor, and_assoc, ← imp_and, forall_mem_cons]
          rfl
      · exact ih db

/-- The cursor is the maximum of the positions, the client keeps the tasks after it, and
the other clients keep everything. -/
def Database.AdvancesExactly (db : Database) (clientID : List Byte)
    (requests : List (Int × Option UUID)) : Prop :=
  let cursor := db.lookupDeliveryCursor clientID
  let final := db.advanceAll clientID requests
  (final.lookupDeliveryCursor clientID).map TaskPosition.order =
      ((cursor.toList ++ requestedPositions clientID requests).map TaskPosition.order).max? ∧
    (∀ stored, stored ∈ final.tasksOf clientID ↔ stored ∈ db.tasksOf clientID ∧
      ∀ last ∈ final.lookupDeliveryCursor clientID, last.order < stored.position.order) ∧
    ∀ other, other ≠ clientID →
      (∀ stored, stored ∈ final.tasksOf other ↔ stored ∈ db.tasksOf other) ∧
        final.lookupDeliveryCursor other = db.lookupDeliveryCursor other

def Database.Moves (db : Database) (clientID : List Byte) (requests : List (Int × Option UUID)) :
    Prop :=
  ∃ next ∈ requestedPositions clientID requests,
    deliveryPositionAfter next (db.lookupDeliveryCursor clientID) = true

theorem advanceAll_eq_self {requests : List (Int × Option UUID)}
    (stays : ¬ db.Moves clientID requests) : db.advanceAll clientID requests = db := by
  induction requests with
  | nil => rfl
  | cons request rest ih =>
    rw [Database.Moves, requestedPositions, filterMap_cons] at stays
    rw [Database.advanceAll, foldl_cons, Database.updateAdvanceCursor]
    cases found : Database.requestedPosition clientID request with
    | none =>
      rw [found] at stays
      exact ih stays
    | some next =>
      rw [found] at stays
      rw [map_some, if_neg fun beyond => stays ⟨next, mem_cons_self, beyond⟩]
      exact ih fun ⟨later, member, beyond⟩ => stays ⟨later, .tail _ member, beyond⟩

theorem advancing_ne_nil {requests : List (Int × Option UUID)}
    (moves : db.Moves clientID requests) :
    advancing (db.lookupDeliveryCursor clientID) (requestedPositions clientID requests) ≠ [] := by
  obtain ⟨next, member, after⟩ := moves
  generalize requestedPositions clientID requests = requested at member
  induction requested with
  | nil => cases member
  | cons first rest ih =>
    rw [advancing]
    split
    · exact cons_ne_nil _ _
    · next stays =>
      rcases mem_cons.mp member with rfl | later
      · exact absurd after stays
      · exact ih later

/-- The cursor ends at the greatest position. If a request lies beyond it, the client keeps
exactly the tasks after the new cursor, otherwise nothing changes. The other clients keep
everything. -/
theorem advanceAll_moves_or_stays {requests : List (Int × Option UUID)} (free : 0 ∉ clientID)
    (others : ∀ stored, .task stored ∈ db.records → 0 ∉ stored.clientID)
    (range : ∀ position ∈ requestedPositions clientID requests,
      position.InRange ∧ 0 ≤ position.ts) :
    let final := db.advanceAll clientID requests
    (final.lookupDeliveryCursor clientID).map TaskPosition.order =
      (((db.lookupDeliveryCursor clientID).toList ++
        requestedPositions clientID requests).map TaskPosition.order).max? ∧
    (db.Moves clientID requests → ∀ stored, stored ∈ final.tasksOf clientID ↔
      stored ∈ db.tasksOf clientID ∧
        ∀ last ∈ final.lookupDeliveryCursor clientID, last.order < stored.position.order) ∧
    (¬ db.Moves clientID requests → final = db) ∧
    ∀ other, other ≠ clientID →
      (∀ stored, stored ∈ final.tasksOf other ↔ stored ∈ db.tasksOf other) ∧
        final.lookupDeliveryCursor other = db.lookupDeliveryCursor other := by
  obtain ⟨cursor, cursors, tasks⟩ := advanceAll_spec db clientID requests
  refine ⟨by rw [cursor, max?_eq_getLast?], fun moves stored => ?_, advanceAll_eq_self,
    fun other foreign => ⟨fun stored => ?_, cursors other foreign⟩⟩
  · have sorted := (pairwise_append.mp (advancing_sorted (db.lookupDeliveryCursor clientID)
      (requestedPositions clientID requests))).2.1
    rw [cursor, getLast?_append_of_ne_nil _ (advancing_ne_nil moves), after_getLast?_iff _ sorted,
      mem_tasksOf, mem_tasksOf, tasks stored, and_right_comm]
    refine and_congr_right fun ⟨member, own⟩ => ?_
    obtain ⟨storedRange, positive⟩ := db.inRange _ member
    rw [Record.key, own, imp_iff_right begins_taskKey]
    refine forall₂_congr fun move listed => ?_
    obtain ⟨moveRange, forward⟩ := range move (mem_of_mem_advancing listed)
    exact taskKey_lt_iff_order moveRange forward storedRange positive
  · rw [mem_tasksOf, mem_tasksOf, tasks stored]
    refine and_congr_left fun own => and_iff_left_of_imp fun member begins => ?_
    rw [← own, clientID_of_begins free (others stored member) begins] at foreign
    exact absurd rfl foreign

end Runs

/-- The first request stays behind the cursor, the second moves it past one task of two, and the
third comes too late. -/
def threeRequests : List (Int × Option UUID) := [(3, some 1), (5, some 7), (5, some 2)]

theorem advanceAll_moves_past_one :
    let final := (threeTasks.setCursor [97] ⟨4, 0⟩).advanceAll [97] threeRequests
    final.lookupDeliveryCursor [97] = some ⟨5, 7⟩ ∧
      (final.tasksOf [97]).map StoredTask.position = [⟨5, 9⟩] ∧
      ∀ stored, stored ∈ final.tasksOf [97, 98] ↔
        stored ∈ (threeTasks.setCursor [97] ⟨4, 0⟩).tasksOf [97, 98] := by
  have others : ∀ stored, .task stored ∈ (threeTasks.setCursor [97] ⟨4, 0⟩).records →
      0 ∉ stored.clientID := by
    intro stored member
    have := task_mem_setCursor.mp member
    simp only [threeTasks, OrderedLog.mem_def, mem_cons, not_mem_nil, or_false,
      Record.task.injEq] at this
    rcases this with rfl | rfl | rfl <;> decide
  have range : ∀ position ∈ requestedPositions [97] threeRequests,
      position.InRange ∧ 0 ≤ position.ts := by decide
  obtain ⟨-, -, -, kept⟩ := advanceAll_moves_or_stays (by decide) others range
  exact ⟨by decide, by decide, (kept [97, 98] (by decide)).1⟩

/-- A task behind the cursor stays when the request does not move the cursor. -/
theorem task_kept_behind_cursor : ¬ ((oneTask ⟨3, 1⟩ (by decide)).setCursor [97]
    ⟨5, 0⟩).AdvancesExactly [97] [(4, some 0)] := by
  intro exactly
  have after :=
    ((exactly.2.1 ⟨[97], ⟨3, 1⟩, { messageID := 1, deliveryQoS := 1 }⟩).mp (by decide)).2
  have less := TaskPosition.order_lt_iff.mp (after ⟨5, 0⟩ (by decide))
  revert less
  decide

end SkyTree.Delivery
