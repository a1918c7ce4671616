import SkyTree.SharedSubscription.Store
import SkyTree.Delivery.Router

/-!
# Queueing a message for share groups

For every share-group task of a route result the broker looks for a task of the message
in the group's queue and appends one when there is none that is pending or processing.
The lookup goes by group and message only, so of several filters of one group a message
is queued for the first one alone.
-/

namespace SkyTree.SharedSubscription

open Foundation Subscription Delivery List OrderedLog ShareQueue

def activeShareTaskStatuses : List TaskStatus := [.pending, .processing]

def newPendingShareGroupTask (now : Nat) (messageID taskID : UUID)
    (shareTask : Router.ShareGroupTask) : ShareGroupTask where
  taskID := taskID
  shareGroup := shareTask.shareGroup
  topicFilter := shareTask.topicFilter
  messageID := messageID
  deliveryQoS := shareTask.deliveryQoS
  publishQoS := shareTask.publishQoS
  publisherClient := shareTask.publisherClient
  subscriptionIDs := shareTask.subscriptionIDs
  winnerNoLocal := shareTask.winnerNoLocal
  winnerRAP := shareTask.winnerRAP
  status := .pending
  timestamp := now

/-- What the environment adds to one round of the loop: the identifier `uuid.New` returns
and the errors of the calls. -/
structure AppendRound where
  taskID : UUID
  queryError : Option String := none
  appendError : Option String := none
  notifyError : Option String := none

def AppendRound.notify (round : AppendRound) (shareGroup : String) : List String :=
  match round.notifyError with
  | none => []
  | some err => ["notify share group " ++ shareGroup ++ ": " ++ err]

def appendSharedDeliveryTask (now : Nat) (messageID : UUID) (round : AppendRound)
    (store : ShareStore) (shareTask : Router.ShareGroupTask) : ShareStore × List String :=
  let failed := fun err => ["share group " ++ shareTask.shareGroup ++ ": " ++ err]
  if shareTask.shareGroup = "" then (store, [])
  else
    match round.queryError with
    | some err => (store, failed err)
    | none =>
      match (store shareTask.shareGroup).queryShareTaskByMessageID messageID
          activeShareTaskStatuses with
      | some _ => (store, round.notify shareTask.shareGroup)
      | none =>
        let task := newPendingShareGroupTask now messageID round.taskID shareTask
        let appended : Except String ShareStore := match round.appendError with
          | some err => .error err
          | none => store.appendShareGroupTask now task
        match appended with
        | .error err => (store, failed err)
        | .ok next => (next, round.notify task.shareGroup)

def appendSharedDeliveryLoop (now : Nat) (messageID : UUID) :
    (Nat → AppendRound) → ShareStore → List Router.ShareGroupTask → ShareStore × List String
  | _, store, [] => (store, [])
  | rounds, store, shareTask :: rest =>
    let (next, errs) := appendSharedDeliveryTask now messageID (rounds 0) store shareTask
    let (final, more) := appendSharedDeliveryLoop now messageID (fun i => rounds (i + 1)) next rest
    (final, errs ++ more)

def appendSharedDeliveryTasks (shared : Option ShareStore) (now : Nat) (messageID : UUID)
    (rounds : Nat → AppendRound) (shareTasks : List Router.ShareGroupTask) :
    Option ShareStore × Except (List String) Unit :=
  if shareTasks = [] then (shared, .ok ())
  else
    match shared with
    | none => (none, .error ["shared subscription store is nil"])
    | some store =>
      let (final, appendErrs) := appendSharedDeliveryLoop now messageID rounds store shareTasks
      (some final, if appendErrs = [] then .ok () else .error appendErrs)

/-! ## What a queue holds for a message -/

namespace ShareQueue

def Active (queue : ShareQueue) (messageID : UUID) : Prop :=
  ∃ task ∈ queue.tasks, task.messageID = messageID ∧ task.status ∈ activeShareTaskStatuses

def Covers (queue : ShareQueue) (messageID : UUID) (topicFilter : String) : Prop :=
  ∃ task ∈ queue.tasks, task.messageID = messageID ∧ task.topicFilter = topicFilter ∧
    (task.status = .pending ∨ task.status = .processing ∨ task.status = .completed)

instance (queue : ShareQueue) (messageID : UUID) : Decidable (queue.Active messageID) :=
  inferInstanceAs (Decidable (∃ task ∈ queue.tasks.entries, _))

instance (queue : ShareQueue) (messageID : UUID) (topicFilter : String) :
    Decidable (queue.Covers messageID topicFilter) :=
  inferInstanceAs (Decidable (∃ task ∈ queue.tasks.entries, _))

variable {queue : ShareQueue} {messageID : UUID}

theorem queryShareTaskByMessageID_active_eq_none_iff :
    queue.queryShareTaskByMessageID messageID activeShareTaskStatuses = none ↔
      ¬queue.Active messageID := by
  have nonnil : activeShareTaskStatuses ≠ [] := cons_ne_nil _ _
  rw [queryShareTaskByMessageID_eq_none_iff nonnil]
  constructor
  · rintro none ⟨task, hs, he, ha⟩
    exact none task hs ha he
  · intro hi task hs ha he
    exact hi ⟨task, hs, he, ha⟩

theorem covers_appendShareTask_iff {task : ShareGroupTask} {topicFilter : String}
    (hf : ∀ stored ∈ queue.tasks, stored.taskID ≠ task.taskID)
    (he : task.messageID = messageID) (hp : task.status = .pending) :
    (queue.appendShareTask task).Covers messageID topicFilter ↔
      queue.Covers messageID topicFilter ∨ task.topicFilter = topicFilter := by
  constructor
  · rintro ⟨stored, hm, msgEq, filterEq, hs⟩
    rcases mem_insert.mp hm with rfl | ⟨old, -⟩
    · exact .inr filterEq
    · exact .inl ⟨stored, old, msgEq, filterEq, hs⟩
  · rintro (⟨stored, old, msgEq, filterEq, hs⟩ | filterEq)
    · have ha : stored.position ≠ task.position := fun posEq =>
        hf stored old (ShareGroupTask.taskID_eq_of_position_eq posEq)
      exact ⟨stored, mem_insert.mpr (.inr ⟨old, ha⟩), msgEq, filterEq, hs⟩
    · exact ⟨task, mem_insert.mpr (.inl rfl), he, filterEq, .inl hp⟩

end ShareQueue

/-! ## The loop -/

section Loop

variable {now : Nat} {messageID : UUID} {store : ShareStore} {stk : Router.ShareGroupTask}

theorem appendSharedDeliveryTask_cases {round : AppendRound} {next : ShareStore}
    (ht : appendSharedDeliveryTask now messageID round store stk = (next, [])) :
    ((stk.shareGroup = "" ∨ (store stk.shareGroup).Active messageID) ∧ next = store) ∨
      (stk.shareGroup ≠ "" ∧ ¬(store stk.shareGroup).Active messageID ∧
        next = Function.update store stk.shareGroup ((store stk.shareGroup).appendShareTask
            (newPendingShareGroupTask now messageID round.taskID stk))) := by
  unfold appendSharedDeliveryTask at ht
  dsimp only at ht
  split at ht
  next unnamed => exact .inl ⟨.inl unnamed, (congrArg Prod.fst ht).symm⟩
  next named =>
    split at ht
    next => simp at ht
    next =>
      split at ht
      next existing found =>
        have active : (store stk.shareGroup).Active messageID := by
          by_contra hi
          rw [queryShareTaskByMessageID_active_eq_none_iff.mpr hi] at found
          cases found
        exact .inl ⟨.inr active, (congrArg Prod.fst ht).symm⟩
      next missing =>
        have hi := queryShareTaskByMessageID_active_eq_none_iff.mp missing
        refine .inr ⟨named, hi, ?_⟩
        split at ht
        next => simp at ht
        next app ha =>
          split at ha
          next => cases ha
          next =>
            unfold ShareStore.appendShareGroupTask at ha
            split at ha
            next => cases ha
            next =>
              obtain rfl := Except.ok.inj ha
              exact (congrArg Prod.fst ht).symm

/-- After a loop without errors the queue of a group is as before, or it has a task for the
first filter of the group and had no active one. -/
theorem appendSharedDeliveryLoop_queue (shareGroup : String) {rounds : Nat → AppendRound}
    {after : ShareStore} {shareTasks : List Router.ShareGroupTask}
    (ht : appendSharedDeliveryLoop now messageID rounds store shareTasks = (after, [])) :
    (after shareGroup = store shareGroup ∧ (shareGroup = "" ∨ (store shareGroup).Active messageID ∨
          ∀ stk ∈ shareTasks, stk.shareGroup ≠ shareGroup)) ∨
      (shareGroup ≠ "" ∧ ¬(store shareGroup).Active messageID ∧
        ∃ first i, shareTasks.find? (fun stk => stk.shareGroup = shareGroup) = some first ∧
          after shareGroup = (store shareGroup).appendShareTask
            (newPendingShareGroupTask now messageID (rounds i).taskID first)) := by
  induction shareTasks generalizing rounds store with
  | nil =>
    obtain rfl := congrArg Prod.fst ht
    exact .inl ⟨rfl, .inr (.inr nofun)⟩
  | cons stk rest ih =>
    simp only [appendSharedDeliveryLoop, Prod.mk.injEq, append_eq_nil_iff] at ht
    obtain ⟨next, headTaken⟩ : ∃ next, appendSharedDeliveryTask now messageID (rounds 0) store stk =
      (next, []) := ⟨_, Prod.ext rfl ht.2.1⟩
    rw [headTaken] at ht
    have hh := appendSharedDeliveryTask_cases headTaken
    have tail := @ih next _ (Prod.ext ht.1 ht.2.2)
    by_cases own : stk.shareGroup = shareGroup
    · subst own
      rcases hh with ⟨hi, rfl⟩ | ⟨hn, quiet, rfl⟩
      · rcases tail with ⟨hu, -⟩ | ⟨hn, quiet, -⟩
        · exact .inl ⟨hu, hi.imp_right .inl⟩
        · exact absurd hi (not_or.mpr ⟨hn, quiet⟩)
      · simp only [Function.update_self] at tail
        have active : ((store stk.shareGroup).appendShareTask
            (newPendingShareGroupTask now messageID (rounds 0).taskID stk)).Active messageID :=
          ⟨_, mem_insert.mpr (.inl rfl), rfl, mem_cons_self⟩
        rcases tail with ⟨ha, -⟩ | ⟨-, stillInactive, -⟩
        · exact .inr ⟨hn, quiet, stk, 0, find?_cons_of_pos (by simp), ha⟩
        · exact absurd active stillInactive
    · have hk : next shareGroup = store shareGroup := by
        rcases hh with ⟨-, rfl⟩ | ⟨-, -, rfl⟩
        · rfl
        · exact Function.update_of_ne (Ne.symm own) _ _
      rw [hk] at tail
      rcases tail with ⟨hu, why⟩ | ⟨hn, quiet, first, i, hf, ha⟩
      · refine .inl ⟨hu, why.imp_right (Or.imp_right fun ho => ?_)⟩
        exact forall_mem_cons.mpr ⟨own, ho⟩
      · refine .inr ⟨hn, quiet, first, i + 1, ?_, ha⟩
        rw [find?_cons_of_neg (by simpa using own), hf]

/-- Identifiers that `uuid.New` returns are not in use. -/
def Fresh (rounds : Nat → AppendRound) (store : ShareStore) : Prop :=
  ∀ shareGroup, ∀ task ∈ (store shareGroup).tasks, ∀ i, task.taskID ≠ (rounds i).taskID

/-- After an append without errors every filter of the route result is covered exactly when
each of them was covered before, or is the first filter of its group while no task of the
message is active there. -/
theorem appendSharedDeliveryTasks_covers_iff {rounds : Nat → AppendRound}
    {store after : ShareStore} {shareTasks : List Router.ShareGroupTask}
    (fresh : Fresh rounds store)
    (succeeded : appendSharedDeliveryTasks (some store) now messageID rounds shareTasks =
      (some after, .ok ())) :
    (∀ shareTask ∈ shareTasks,
        (after shareTask.shareGroup).Covers messageID shareTask.topicFilter) ↔
      ∀ shareTask ∈ shareTasks,
        (store shareTask.shareGroup).Covers messageID shareTask.topicFilter ∨
          (shareTask.shareGroup ≠ "" ∧ ¬(store shareTask.shareGroup).Active messageID ∧
            (shareTasks.find? fun other => other.shareGroup = shareTask.shareGroup).map
              Router.ShareGroupTask.topicFilter = some shareTask.topicFilter) := by
  have looped : appendSharedDeliveryLoop now messageID rounds store shareTasks = (after, []) := by
    simp only [appendSharedDeliveryTasks] at succeeded
    split at succeeded
    next nothing =>
      obtain rfl := Option.some.inj (congrArg Prod.fst succeeded)
      simp [nothing, appendSharedDeliveryLoop]
    next =>
      obtain ⟨final, errs⟩ := Prod.mk.injEq .. ▸ succeeded
      refine Prod.ext (Option.some.inj final) ?_
      by_contra failed
      rw [if_neg failed] at errs
      cases errs
  refine forall₂_congr fun shareTask hl => ?_
  rcases appendSharedDeliveryLoop_queue shareTask.shareGroup looped with
    ⟨same, why⟩ | ⟨hn, hi, first, i, hf, ha⟩
  · rw [same]
    refine (or_iff_left fun ⟨hn, hi, _⟩ => ?_).symm
    rcases why with hu | active | ho
    · exact hn hu
    · exact hi active
    · exact ho shareTask hl rfl
  · have new : ∀ stored ∈ (store shareTask.shareGroup).tasks,
        stored.taskID ≠ (newPendingShareGroupTask now messageID (rounds i).taskID first).taskID :=
      fun stored hm => fresh _ stored hm i
    have hg : ((store shareTask.shareGroup).appendShareTask
          (newPendingShareGroupTask now messageID (rounds i).taskID first)).Covers messageID
          shareTask.topicFilter ↔
        (store shareTask.shareGroup).Covers messageID shareTask.topicFilter ∨
          first.topicFilter = shareTask.topicFilter :=
      covers_appendShareTask_iff new rfl rfl
    rw [ha, hg, hf, Option.map_some, Option.some.injEq]
    exact or_congr_right ⟨fun he => ⟨hn, hi, he⟩, fun hc => hc.2.2⟩

end Loop

/-! ## Two filters of one group -/

def twoFilters : List Router.ShareGroupTask :=
  let subscription := fun filter : String =>
    ({ topicFilter := filter, qos := 1, retainAsPublished := false, noLocal := false
       retainHandling := 0, subscriptionIdentifier := 0 } : MatchedSubscription)
  (Router.routeMatches
    [{ clientID := "alice", maxQoS := 1
       matched := [subscription "$share/g/a/+", subscription "$share/g/a/b"] }]
    { topic := "a/b", payload := [], qos := 1 } "bob").shareGroupTasks

theorem twoFilters_eq : twoFilters = ["a/+", "a/b"].map fun filter =>
      { shareGroup := "g", topicFilter := filter, deliveryQoS := 1, publishQoS := 1
        publisherClient := "bob", subscriptionIDs := [], winnerNoLocal := false
        winnerRAP := false } := by
  decide

def countedRounds : Nat → AppendRound := fun i => { taskID := i + 2 }

def completedSecond : ShareQueue := ShareQueue.empty.appendShareTask
  { taskID := 1, shareGroup := "g", topicFilter := "a/b", messageID := 7, deliveryQoS := 1
    publishQoS := 1, timestamp := 3, status := .completed }

theorem appendSharedDeliveryTasks_covers_two_filters : ∃ after,
      appendSharedDeliveryTasks (some fun _ => completedSecond) 5 7 countedRounds twoFilters =
        (some after, .ok ()) ∧
      ∀ shareTask ∈ twoFilters, (after shareTask.shareGroup).Covers 7 shareTask.topicFilter := by
  have fresh : Fresh countedRounds fun _ => completedSecond := by
    intro shareGroup task stored i same
    obtain rfl := mem_singleton.mp stored
    exact absurd same (Nat.ne_of_lt (by show 1 < i + 2; omega))
  obtain ⟨after, done⟩ : ∃ after, appendSharedDeliveryTasks (some fun _ => completedSecond) 5 7
      countedRounds twoFilters = (some after, .ok ()) := by
    rw [twoFilters_eq]
    exact ⟨_, rfl⟩
  refine ⟨after, done, (appendSharedDeliveryTasks_covers_iff fresh done).mpr ?_⟩
  rw [twoFilters_eq]
  decide

/-- The message is queued for `a/+` and not for `a/b`, and the append reports success. -/
theorem second_filter_not_queued :
    twoFilters.map (fun shareTask => (shareTask.shareGroup, shareTask.topicFilter)) =
        [("g", "a/+"), ("g", "a/b")] ∧
      ∃ after, appendSharedDeliveryTasks (some fun _ => .empty) 5 7 countedRounds twoFilters =
          (some after, .ok ()) ∧
        (after "g").Covers 7 "a/+" ∧ ¬(after "g").Covers 7 "a/b" := by
  rw [twoFilters_eq]
  exact ⟨rfl, _, rfl, by decide, by decide⟩

end SkyTree.SharedSubscription
