import SkyTree.SharedSubscription.Strategy

/-!
# Assigning a share task

`processTaskAt` claims a share task, picks an online member, appends a delivery task to
the member's queue and wakes its connection. A member that cannot be woken is left with
the appended task and the next one is tried. The append is refused for a message that
the member's queue already holds, which then carries no trace of the share task.
-/

namespace SkyTree.SharedSubscription

open Foundation Delivery List OrderedLog ClientQueue

/-! ## Candidates -/

def orderSharedCandidates (candidates : List OnlineShareGroupMember) (taskOffset : Nat) :
    List OnlineShareGroupMember :=
  candidates.rotate taskOffset

/-- The first candidate with a name whose options resolve. -/
def selectClientForTask (resolve : ClientID → Option ResolvedClientOptions)
    (candidates : List OnlineShareGroupMember) :
    Option (OnlineShareGroupMember × ResolvedClientOptions) :=
  candidates.findSome? fun candidate =>
    if candidate.clientID = "" then none
    else (resolve candidate.clientID).map fun resolved => (candidate, resolved)

def removeOnlineCandidate (candidates : List OnlineShareGroupMember) (clientID : ClientID) :
    List OnlineShareGroupMember :=
  if clientID = "" then candidates
  else candidates.eraseP fun candidate => candidate.clientID = clientID

/-- Candidates of the node that just failed come first. -/
def prioritizeOwnerCandidates (candidates : List OnlineShareGroupMember) (ownerNodeID : Nat) :
    List OnlineShareGroupMember :=
  if ownerNodeID = 0 then candidates
  else candidates.filter (fun candidate => candidate.ownerNodeID = ownerNodeID) ++
    candidates.filter fun candidate => ¬candidate.ownerNodeID = ownerNodeID

variable {cands : List OnlineShareGroupMember} {selected : OnlineShareGroupMember}

theorem selectClientForTask_eq_some {resolve : ClientID → Option ResolvedClientOptions}
    {resolved : ResolvedClientOptions}
    (hf : selectClientForTask resolve cands = some (selected, resolved)) :
    selected ∈ cands ∧ selected.clientID ≠ "" ∧ resolve selected.clientID = some resolved := by
  obtain ⟨candidate, hm, ha⟩ := exists_of_findSome?_eq_some hf
  split at ha
  next => cases ha
  next named =>
    obtain ⟨options, told, he⟩ := Option.map_eq_some_iff.mp ha
    obtain ⟨rfl, rfl⟩ := Prod.mk.inj he
    exact ⟨hm, named, told⟩

theorem length_prioritizeOwnerCandidates (cands : List OnlineShareGroupMember) (ownerNodeID : Nat) :
    (prioritizeOwnerCandidates cands ownerNodeID).length = cands.length := by
  unfold prioritizeOwnerCandidates
  split
  next => rfl
  next =>
    rw [length_append]
    simpa using (length_eq_length_filter_add
      (l := cands) fun cand => cand.ownerNodeID = ownerNodeID).symm

def remainingAfter (candidates : List OnlineShareGroupMember) (selected : OnlineShareGroupMember) :
    List OnlineShareGroupMember :=
  prioritizeOwnerCandidates (removeOnlineCandidate candidates selected.clientID)
    selected.ownerNodeID

theorem length_remainingAfter_lt (hm : selected ∈ cands) (hn : selected.clientID ≠ "") :
    (remainingAfter cands selected).length < cands.length := by
  have hs := length_eraseP_of_mem
    (p := fun candidate : OnlineShareGroupMember => candidate.clientID = selected.clientID)
    hm (by simp)
  have hf := length_pos_of_mem hm
  rw [remainingAfter, length_prioritizeOwnerCandidates, removeOnlineCandidate, if_neg hn]
  omega

/-! ## Waking a member -/

/-- What waking depends on: the node, the connections registered here, each with whether it
runs a delivery loop, and the event bus to other nodes. -/
structure Waker where
  localNodeID : Nat
  readClient : Option (ClientID → Option Bool)
  notifyToNode : Option (Nat → String → ClientID → Option String)

namespace Waker

variable (waker : Waker)

def isRemoteOwner (ownerNodeID : Nat) : Bool :=
  ownerNodeID ≠ 0 && waker.localNodeID ≠ 0 && ownerNodeID ≠ waker.localNodeID

def wakeLocalClient (clientID : ClientID) : Option String :=
  match waker.readClient with
  | none => some "shared local wake client manager is nil"
  | some readClient =>
    match readClient clientID with
    | none => some ("shared local client \"" ++ clientID ++ "\" is not online")
    | some false =>
      some ("shared local client \"" ++ clientID ++ "\" cannot wake delivery runner")
    | some true => none

def wakeClient (member : OnlineShareGroupMember) (task : ShareGroupTask) : Option String :=
  if member.clientID = "" then some "selected shared member is empty"
  else if waker.isRemoteOwner member.ownerNodeID = false then waker.wakeLocalClient member.clientID
  else
    match waker.notifyToNode with
    | none => some "shared remote wake event is nil"
    | some notifyToNode => notifyToNode member.ownerNodeID task.topicFilter member.clientID

end Waker

/-! ## The assignment loop -/

/-- What the environment adds to one attempt: the clock, the identifier `uuid.NewV7` returns,
an error of the append and the state a wake depends on. -/
structure Attempt where
  start : Nat
  taskID : UUID
  appendError : Option String := none
  waker : Waker

def clientTask (shareGroup : String) (task : ShareGroupTask) (resolved : ResolvedClientOptions)
    (start : Nat) (taskID : UUID) : DeliveryTask where
  ts := start
  taskID := taskID
  messageID := task.messageID
  deliveryQoS := resolved.deliveryQoS
  subscriptionIDs := resolved.subscriptionIDs
  noLocal := resolved.noLocal
  retainAsPublished := resolved.rap
  shareGroup := shareGroup
  sharedTaskID := task.taskID

/-- The loop over the remaining candidates; an answer names the member that was woken. -/
def assignTaskToWakeableClient (shareGroup : String)
    (resolve : ClientID → Option ResolvedClientOptions) (task : ShareGroupTask)
    (attempts : Nat → Attempt) (deliveries : DeliveryStore)
    (remaining : List OnlineShareGroupMember) (lastWakeErr : Option String) :
    DeliveryStore × Except String ClientID :=
  match _found : selectClientForTask resolve remaining with
  | none => (deliveries, .error (match lastWakeErr with
      | some wakeErr => "failed to wake any shared subscription client: " ++ wakeErr
      | none => "no eligible client selected"))
  | some (selected, resolved) =>
    match (attempts 0).appendError with
    | some err => (deliveries, .error ("failed to append client task: " ++ err))
    | none =>
      let appended := deliveries.appendClientTask selected.clientID
        (clientTask shareGroup task resolved (attempts 0).start (attempts 0).taskID)
      match (attempts 0).waker.wakeClient selected task with
      | none => (appended, .ok selected.clientID)
      | some wakeErr =>
        assignTaskToWakeableClient shareGroup resolve task (fun i => attempts (i + 1))
          appended (remainingAfter remaining selected) (some wakeErr)
  termination_by remaining.length
  decreasing_by
    have accepted := selectClientForTask_eq_some ‹_›
    exact length_remainingAfter_lt accepted.1 accepted.2.1

section Loop

variable {shareGroup : String} {resolve : ClientID → Option ResolvedClientOptions}
  {task : ShareGroupTask} {remaining : List OnlineShareGroupMember}

/-- The loop appends at most one task to the queue of a client, and only when the message
was not queued there. -/
theorem assignTaskToWakeableClient_queue {attempts : Nat → Attempt}
    {deliveries after : DeliveryStore} {lastWakeErr : Option String}
    {outcome : Except String ClientID}
    (hr : assignTaskToWakeableClient shareGroup resolve task attempts deliveries remaining
      lastWakeErr = (after, outcome))
    (clientID : ClientID) :
    after clientID = deliveries clientID ∨
      ((deliveries clientID).deliveryTaskExists task.messageID = false ∧
        ∃ resolved i, resolve clientID = some resolved ∧
          after clientID = ((deliveries clientID).appendTask
            (clientTask shareGroup task resolved (attempts i).start (attempts i).taskID)).1) := by
  fun_induction assignTaskToWakeableClient shareGroup resolve task attempts deliveries remaining
    lastWakeErr with
  | case1 | case2 =>
    obtain ⟨rfl, -⟩ := Prod.mk.inj hr
    exact .inl rfl
  | case3 attempts deliveries remaining _ selected resolved hf =>
    obtain ⟨rfl, -⟩ := Prod.mk.inj hr
    have ha := selectClientForTask_eq_some hf
    refine (deliveries.appendClientTask_cases selected.clientID clientID _).imp_right ?_
    rintro ⟨rfl, absent, hg⟩
    exact ⟨absent, resolved, 0, ha.2.2, hg⟩
  | case4 attempts deliveries remaining _ selected resolved hf _ appended _ _ ih =>
    have ha := selectClientForTask_eq_some hf
    have hl := ih hr
    rcases deliveries.appendClientTask_cases selected.clientID clientID
        (clientTask shareGroup task resolved (attempts 0).start (attempts 0).taskID) with
      hk | ⟨rfl, absent, hg⟩
    · -- this attempt went to another queue or found the message there
      rw [show appended clientID = deliveries clientID from hk] at hl
      refine hl.imp_right ?_
      rintro ⟨absent, options, i, told, hg⟩
      exact ⟨absent, options, i + 1, told, hg⟩
    · -- this attempt appended, so no later one does
      right
      refine ⟨absent, resolved, 0, ha.2.2, ?_⟩
      rcases hl with he | ⟨stillAbsent, -⟩
      · exact he.trans hg
      · have hq := deliveryTaskExists_appendTask (deliveries selected.clientID)
          (clientTask shareGroup task resolved (attempts 0).start (attempts 0).taskID)
        rw [← hg] at hq
        exact absurd (hq.symm.trans stillAbsent) (by decide)

theorem assignTaskToWakeableClient_selected {attempts : Nat → Attempt}
    {ds after : DeliveryStore} {lastWakeErr : Option String} {sel : ClientID}
    (hr : assignTaskToWakeableClient shareGroup resolve task attempts ds remaining lastWakeErr =
      (after, .ok sel)) :
    (after sel).deliveryTaskExists task.messageID = true := by
  fun_induction assignTaskToWakeableClient shareGroup resolve task attempts ds remaining
    lastWakeErr with
  | case1 | case2 => cases (Prod.mk.inj hr).2
  | case3 attempts ds remaining _ chosen res hf =>
    obtain ⟨rfl, he⟩ := Prod.mk.inj hr
    obtain rfl := Except.ok.inj he
    have hq := deliveryTaskExists_appendTask (ds chosen.clientID)
      (clientTask shareGroup task res (attempts 0).start (attempts 0).taskID)
    rw [← DeliveryStore.appendClientTask_self] at hq
    exact hq
  | case4 _ _ _ _ _ _ _ _ _ _ _ ih => exact ih hr

end Loop

/-! ## Processing a task -/

structure ProcessEnvironment where
  claimedAt : Nat
  claimError : Option String := none
  revertedAt : Nat
  revertFails : Bool := false
  attempts : Nat → Attempt

structure GroupStores where
  queue : ShareQueue
  deliveries : DeliveryStore

def resolveSharedPlanOptions (strategy : SharedDeliveryStrategy) (task : ShareGroupTask)
    (clientID : ClientID) : Option ResolvedClientOptions :=
  match strategy.resolveClientOptions
      { shareGroup := task.shareGroup, topicFilter := task.topicFilter
        publisherClient := task.publisherClient, publishQoS := task.publishQoS
        clientID := clientID } with
  | .error _ => none
  | .ok resolved => resolved

/-- A success without a claim leaves the task to whoever took it; one with a claim names the
member the task was assigned to. -/
def processTaskAt (shareGroup : String) (strategy : SharedDeliveryStrategy) (stores : GroupStores)
    (task : ShareGroupTask) (taskOffset : Nat) (environment : ProcessEnvironment) :
    GroupStores × Except String (Option ClientID) :=
  match environment.claimError with
  | some err => (stores, .error ("failed to update task status: " ++ err))
  | none =>
    let (queue, updated) :=
      stores.queue.updateShareTaskStatus task.taskID .pending .processing environment.claimedAt
    if updated = false then (stores, .ok none)
    else
      let reverted := if environment.revertFails then queue else
        (queue.updateShareTaskStatus task.taskID .processing .pending environment.revertedAt).1
      match strategy.onlineCandidates shareGroup task.topicFilter with
      | .error err =>
        ({ stores with queue := reverted }, .error ("failed to get online clients: " ++ err))
      | .ok [] => ({ stores with queue := reverted }, .error "no online clients available")
      | .ok onlineClients =>
        match assignTaskToWakeableClient shareGroup (resolveSharedPlanOptions strategy task) task
            environment.attempts stores.deliveries
            (orderSharedCandidates onlineClients taskOffset) none with
        | (deliveries, .error err) => (⟨reverted, deliveries⟩, .error err)
        | (deliveries, .ok selected) => (⟨queue, deliveries⟩, .ok (some selected))

section Processing

variable {shareGroup : String} {strategy : SharedDeliveryStrategy} {stores after : GroupStores}
  {task : ShareGroupTask} {taskOffset : Nat} {environment : ProcessEnvironment}
  {selected : ClientID}

theorem processTaskAt_assigned (ha :
    processTaskAt shareGroup strategy stores task taskOffset environment =
      (after, .ok (some selected))) :
    ∃ cands, assignTaskToWakeableClient shareGroup (resolveSharedPlanOptions strategy task) task
        environment.attempts stores.deliveries cands none = (after.deliveries, .ok selected) := by
  unfold processTaskAt at ha
  split at ha
  next => cases ha
  next =>
    dsimp only at ha
    split at ha
    next => cases ha
    next =>
      split at ha
      next => cases ha
      next => cases ha
      next onlineClients _ _ =>
        split at ha
        next => cases ha
        next ds chosen result =>
          obtain ⟨rfl, he⟩ := Prod.mk.inj ha
          obtain rfl := Option.some.inj (Except.ok.inj he)
          exact ⟨_, result⟩

theorem resolveSharedPlanOptions_qos {cid : ClientID} {res : ResolvedClientOptions}
    (ha : resolveSharedPlanOptions strategy task cid = some res) :
    ∃ granted, strategy.grantedQoS cid task.shareGroup task.topicFilter = some granted ∧
      0 ≤ granted ∧
      res.deliveryQoS = if 0 ≤ task.publishQoS then min task.publishQoS granted else granted := by
  unfold resolveSharedPlanOptions at ha
  split at ha
  next => cases ha
  next hf =>
    subst ha
    exact SharedDeliveryStrategy.resolveClientOptions_qos hf

/-- The queue holds a delivery task for the share task at the lower of the QoS of the publish
and the one granted to the member. -/
def Carries (strategy : SharedDeliveryStrategy) (task : ShareGroupTask) (clientID : ClientID)
    (queue : ClientQueue) : Prop :=
  ∃ delivery ∈ queue.tasks, delivery.sharedTaskID = task.taskID ∧
    ∃ granted, strategy.grantedQoS clientID task.shareGroup task.topicFilter = some granted ∧
      delivery.deliveryQoS = min task.publishQoS granted

theorem carries_appendTask_iff {cid : ClientID} {queue : ClientQueue}
    {res : ResolvedClientOptions} {start : Nat} {tid : UUID}
    (told : resolveSharedPlanOptions strategy task cid = some res)
    (ha : queue.deliveryTaskExists task.messageID = false)
    (hf : ∀ stored ∈ queue.tasks, stored.taskID ≠ tid) :
    Carries strategy task cid (queue.appendTask (clientTask shareGroup task res start tid)).1 ↔
      Carries strategy task cid queue ∨ 0 ≤ task.publishQoS := by
  obtain ⟨granted, hk, nonneg, qos⟩ := resolveSharedPlanOptions_qos told
  have ht : (queue.appendTask (clientTask shareGroup task res start tid)).1.tasks =
      queue.tasks.insert (clientTask shareGroup task res start tid) :=
    appendTask_tasks_of_absent ha
  rw [Carries, ht]
  constructor
  · rintro ⟨dlv, hm, he, o, alsoKnown, capped⟩
    rcases mem_insert.mp hm with rfl | ⟨old, -⟩
    · right
      by_contra hn
      obtain rfl := Option.some.inj (hk.symm.trans alsoKnown)
      have hu : (clientTask shareGroup task res start tid).deliveryQoS = granted :=
        qos.trans (if_neg hn)
      omega
    · exact .inl ⟨dlv, old, he, o, alsoKnown, capped⟩
  · rintro (⟨dlv, old, hc⟩ | hp)
    · have apart : dlv.position ≠ (clientTask shareGroup task res start tid).position :=
        fun he => hf dlv old (congrArg (fun pos => (ofLex pos).2) he)
      exact ⟨dlv, mem_insert.mpr (.inr ⟨old, apart⟩), hc⟩
    · exact ⟨_, mem_insert.mpr (.inl rfl), rfl, granted, hk, qos.trans (if_pos hp)⟩

/-- Assigning a share task leaves it in the queue of the selected member, at the right QoS,
exactly when it was there before or the message was not queued for that member. -/
theorem processTaskAt_carries_iff
    (fresh : ∀ clientID, ∀ stored ∈ (stores.deliveries clientID).tasks, ∀ i,
      stored.taskID ≠ (environment.attempts i).taskID)
    (assigned : processTaskAt shareGroup strategy stores task taskOffset environment =
      (after, .ok (some selected))) :
    Carries strategy task selected (after.deliveries selected) ↔
      Carries strategy task selected (stores.deliveries selected) ∨
        ((∀ stored ∈ (stores.deliveries selected).tasks, stored.messageID ≠ task.messageID) ∧
          0 ≤ task.publishQoS) := by
  obtain ⟨candidates, hr⟩ := processTaskAt_assigned assigned
  have hq := assignTaskToWakeableClient_queue hr selected
  have hw := assignTaskToWakeableClient_selected hr
  rw [← deliveryTaskExists_eq_false_iff]
  cases hp : (stores.deliveries selected).deliveryTaskExists task.messageID with
  | true =>
    rcases hq with he | ⟨ha, -⟩
    · simp [he]
    · simp [hp] at ha
  | false =>
    rcases hq with he | ⟨-, resolved, i, told, hg⟩
    · rw [he, hp] at hw
      cases hw
    · rw [hg, carries_appendTask_iff told hp fun stored hm =>
        fresh selected stored hm i]
      simp

end Processing

/-! ## A member that already has the message -/

def oneMember : SharedDeliveryStrategy where
  getShareGroupMembers := fun _ => .ok [⟨"alice", "a"⟩]
  getClientSubscriptions := fun _ => .ok ⟨[{ topic := "$share/g/a", qos := 1 }], by decide⟩
  getSessionOwners := none
  readClient := none

def waitingTask : ShareGroupTask where
  taskID := 9
  shareGroup := "g"
  topicFilter := "a"
  messageID := 7
  deliveryQoS := 1
  publishQoS := 2
  timestamp := 3

def undisturbed : ProcessEnvironment where
  claimedAt := 4
  revertedAt := 5
  attempts := fun i =>
    { start := 4, taskID := 20 + i, waker := ⟨1, some fun _ => some true, none⟩ }

def storesWith (queue : ClientQueue) : GroupStores :=
  ⟨ShareQueue.empty.appendShareTask waitingTask, fun _ => queue⟩

def otherMessage : ClientQueue :=
  (ClientQueue.empty.appendTask { ts := 2, taskID := 10, messageID := 6, deliveryQoS := 0 }).1

theorem processTaskAt_carries_other_message : ∃ after,
      processTaskAt "g" oneMember (storesWith otherMessage) waitingTask 0 undisturbed =
        (after, .ok (some "alice")) ∧
      Carries oneMember waitingTask "alice" (after.deliveries "alice") := by
  obtain ⟨after, done⟩ : ∃ after, processTaskAt "g" oneMember (storesWith otherMessage)
      waitingTask 0 undisturbed = (after, .ok (some "alice")) := by
    unfold processTaskAt assignTaskToWakeableClient
    exact ⟨_, rfl⟩
  have absent : ∀ stored ∈ ((storesWith otherMessage).deliveries "alice").tasks,
      stored.messageID ≠ waitingTask.messageID := by decide
  have fresh : ∀ clientID, ∀ stored ∈ ((storesWith otherMessage).deliveries clientID).tasks, ∀ i,
      stored.taskID ≠ (undisturbed.attempts i).taskID := by
    intro clientID stored queued i same
    obtain rfl := mem_singleton.mp queued
    exact absurd same (Nat.ne_of_lt (by show 10 < 20 + i; omega))
  exact ⟨after, done, (processTaskAt_carries_iff fresh done).mpr (.inr ⟨absent, by decide⟩)⟩

/-- The message is queued for the member by an ordinary subscription: the share task is
claimed and reported as assigned, and no delivery task carries it. -/
theorem assigned_task_not_carried : ∃ after, processTaskAt "g" oneMember
          (storesWith (ClientQueue.empty.appendTask
            { ts := 2, taskID := 10, messageID := 7, deliveryQoS := 0 }).1)
          waitingTask 0 undisturbed = (after, .ok (some "alice")) ∧
      ∀ delivery ∈ (after.deliveries "alice").tasks,
        delivery.sharedTaskID ≠ waitingTask.taskID := by
  unfold processTaskAt assignTaskToWakeableClient
  exact ⟨_, rfl, by decide⟩

end SkyTree.SharedSubscription
