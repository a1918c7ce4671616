import SkyTree.SharedSubscription.GroupInvariants

/-!
# Who holds a share task

A delivery task names the share task it stands for. The consumer appends one for a member
before it knows whether the member can be woken, and tries the next member when not; a task
requeued after a timeout is assigned again while the first member still holds it. A share
task has one holder as long as no other member is tried while a client holds it.
-/

namespace SkyTree.SharedSubscription

open Foundation Delivery

namespace GroupState

section

variable (shareGroup : String)

def Holds (s : GroupState) (clientID : ClientID) (taskID : UUID) : Prop :=
  ∃ delivery ∈ (s.deliveries clientID).tasks,
    delivery.shareGroup = shareGroup ∧ delivery.sharedTaskID = taskID

/-- Who still holds the task is the only member left to try. -/
def KeptFor (s : GroupState) (task : ShareGroupTask) (members : List OnlineShareGroupMember) :
    Prop :=
  ∀ clientID, s.Holds shareGroup clientID task.taskID → ∀ member ∈ members,
    clientID = member.clientID

def AtWork (s : GroupState) : Phase → Prop
  | .assigning task remaining => s.KeptFor shareGroup task remaining
  | .waking task _ selected => s.KeptFor shareGroup task [selected]
  | _ => True

structure Exclusive (shareGroup : String) (s : GroupState) : Prop where
  sole : ∀ taskID first second, s.Holds shareGroup first taskID →
    s.Holds shareGroup second taskID → first = second
  atWork : s.AtWork shareGroup s.consumer.phase

/-- The candidates found for a claimed task, or left when a member could not be woken, are no
others than the client that holds the task, if one does. -/
def CleanHandover (shareGroup : String) (s : GroupState) : GroupLabel → Prop
  | .consumer (.candidates found) =>
    ∀ task, s.consumer.phase = .claimed task → s.KeptFor shareGroup task found
  | .consumer (.wake false _) =>
    ∀ task remaining selected, s.consumer.phase = .waking task remaining selected →
      s.KeptFor shareGroup task (remainingAfter remaining selected)
  | _ => True

end

variable {grp : String} {s next : GroupState}

theorem AtWork.shrink {phase : Phase} (atWork : s.AtWork grp phase)
    (fewer : ∀ clientID taskID, next.Holds grp clientID taskID → s.Holds grp clientID taskID) :
    next.AtWork grp phase := by
  cases phase with
  | idle | reverting task | claimed task => trivial
  | assigning | waking => exact fun clientID held => atWork clientID (fewer clientID _ held)

theorem Exclusive.shrink (exclusive : s.Exclusive grp)
    (fewer : ∀ clientID tid, next.Holds grp clientID tid → s.Holds grp clientID tid)
    (atWork : s.AtWork grp next.consumer.phase) : next.Exclusive grp where
  sole tid first second heldFirst heldSecond :=
    exclusive.sole tid first second (fewer first tid heldFirst) (fewer second tid heldSecond)
  atWork := AtWork.shrink atWork fewer

theorem holds_of_append {clientID other : ClientID} {task : DeliveryTask} {taskID : UUID}
    {consumer : Consumer}
    (hh : ({ s with
      deliveries := s.deliveries.appendClientTask clientID task
      consumer := consumer } : GroupState).Holds grp other taskID) :
    (other = clientID ∧ taskID = task.sharedTaskID) ∨ s.Holds grp other taskID := by
  obtain ⟨delivery, hm, own, rfl⟩ := hh
  rcases mem_of_mem_appendClientTask hm with ⟨rfl, rfl⟩ | old
  · exact .inl ⟨rfl, rfl⟩
  · exact .inr ⟨delivery, old, own, rfl⟩

theorem Exclusive.assigned (exclusive : s.Exclusive grp) {task : ShareGroupTask}
    {remaining : List OnlineShareGroupMember} {selected : OnlineShareGroupMember}
    {resolved : ResolvedClientOptions} {taskID : UUID}
    (kept : s.KeptFor grp task [selected]) :
    Exclusive grp { s with
        deliveries := s.deliveries.appendClientTask selected.clientID
          (clientTask grp task resolved s.clock taskID)
        consumer := { s.consumer with phase := .waking task remaining selected } } where
  sole other first second heldFirst heldSecond := by
    rcases holds_of_append heldFirst with ⟨rfl, rfl⟩ | oldFirst <;>
      rcases holds_of_append heldSecond with ⟨rfl, same⟩ | oldSecond
    · rfl
    · exact (kept second oldSecond selected List.mem_cons_self).symm
    · rw [same] at oldFirst
      exact kept first oldFirst selected List.mem_cons_self
    · exact exclusive.sole other first second oldFirst oldSecond
  atWork clientID held member isSelected := by
    rcases holds_of_append held with ⟨same, -⟩ | old
    · rw [same, List.mem_singleton.mp isSelected]
    · exact kept clientID old member isSelected

theorem Exclusive.consumerMoves (exclusive : s.Exclusive grp) {act : ConsumerAction}
    (met : s.CleanHandover grp (.consumer act))
    (moves : ConsumerMoves grp s act next) : next.Exclusive grp := by
  have atWork := exclusive.atWork
  cases moves with
  | restart loaded | taken idle batch lost | claimed idle batch found pending
  | assignFailed assigning | woken waking | revertFailed reverting | reverted reverting changed =>
    exact exclusive.shrink (fun _ _ held => held) trivial
  | read idle done | claimFailed idle batch => exact exclusive.shrink (fun _ _ held => held) atWork
  | @candidates task found phase claimed chosen =>
    refine exclusive.shrink (fun _ _ held => held) ?_
    rcases chosen with rfl | rfl
    · trivial
    · exact met task claimed
  | @assigned task remaining selected res resolve taskID assigning found fresh =>
    rw [assigning] at atWork
    have member := (selectClientForTask_eq_some found).1
    refine exclusive.assigned fun clientID held other isSelected => ?_
    exact List.mem_singleton.mp isSelected ▸ atWork clientID held selected member
  | @wakeFailed task remaining selected persisted waking =>
    exact exclusive.shrink (fun _ _ held => held) (met task remaining selected waking)

theorem Exclusive.step (sole : s.Exclusive grp) {label : GroupLabel}
    (met : s.CleanHandover grp label)
    (ht : (shareGroupSystem grp).step s label = some next) :
    next.Exclusive grp := by
  cases label with
  | consumer act => exact sole.consumerMoves met (.of_step ht)
  | rollback cid act =>
    have moves := RollbackMoves.of_step ht
    refine sole.shrink ?_ (consumer_of_rollbackMoves moves ▸ sole.atWork)
    rintro o tid ⟨dlv, hm, own, he⟩
    exact ⟨dlv, mem_of_rollbackMoves moves hm, own, he⟩
  | environment act =>
    have moves := EnvironmentMoves.of_step ht
    refine sole.shrink ?_ (consumer_of_environmentMoves moves ▸ sole.atWork)
    rintro o tid ⟨dlv, hm, own, he⟩
    exact ⟨dlv, mem_of_environmentMoves moves hm own, own, he⟩

theorem exclusive_initial : ({} : GroupState).Exclusive grp where
  sole _ _ _ held := by
    obtain ⟨dlv, member, -⟩ := held
    exact absurd member (OrderedLog.not_mem_empty dlv)
  atWork := trivial

end GroupState

/-- In a run with clean handovers a share task is held by one member at a time. -/
theorem held_by_one_member {shareGroup : String} {s : GroupState}
    (reached : (shareGroupSystem shareGroup).Reached (GroupState.CleanHandover shareGroup) {} s)
    {taskID : UUID} {first second : ClientID} (heldFirst : s.Holds shareGroup first taskID)
    (heldSecond : s.Holds shareGroup second taskID) : first = second := by
  have exclusive : s.Exclusive shareGroup :=
    reached.invariant GroupState.exclusive_initial fun _ _ _ exclusive met taken =>
      exclusive.step met taken
  exact exclusive.sole taskID first second heldFirst heldSecond

/-- Alice gets the task and is woken, the task is requeued while she holds it, and she is the
only member online when it is claimed again. -/
theorem held_by_one_member_alice :
    ∃ s, (shareGroupSystem "g").Reached (GroupState.CleanHandover "g") {} s ∧
      s.Holds "g" "alice" 1 ∧ ∀ other, s.Holds "g" other 1 → other = "alice" := by
  let labels : List GroupLabel := [.begins "g" 11 1, .commits "g" 0 11 1, .consumer .read] ++
    GroupLabel.assignsTo "g" ["alice", "bob"] 21 ++
    [.consumer (.wake true true), .environment .tick, .environment (.requeue 1),
      .consumer .read] ++ GroupLabel.assignsTo "g" ["alice"] 22
  obtain ⟨s, taken, held⟩ : ∃ s, (shareGroupSystem "g").run {} labels = some s ∧
      s.Holds "g" "alice" 1 := ⟨_, rfl, _, List.mem_cons_self, rfl, rfl⟩
  have reached : (shareGroupSystem "g").Reached (GroupState.CleanHandover "g") {} s := by
    refine System.reached_of_run taken ⟨trivial, trivial, trivial, trivial, ?_, trivial, trivial,
      trivial, trivial, trivial, trivial, ?_, trivial, trivial⟩
    · rintro task - clientID ⟨delivery, queued, -⟩
      exact absurd queued (OrderedLog.not_mem_empty delivery)
    · rintro task - clientID ⟨delivery, queued, -⟩ member found
      obtain rfl := List.mem_singleton.mp found
      rcases GroupState.mem_of_mem_appendClientTask queued with ⟨rfl, -⟩ | old
      · rfl
      · exact absurd old (OrderedLog.not_mem_empty delivery)
  exact ⟨s, reached, held, fun other heldToo => held_by_one_member reached heldToo held⟩

/-- Alice cannot be woken after the append, so bob gets the task as well. -/
theorem held_by_two_members : ∃ s, (shareGroupSystem "g").Reached (fun _ _ => True) {} s ∧
      s.Holds "g" "alice" 1 ∧ s.Holds "g" "bob" 1 := by
  let labels : List GroupLabel := [.begins "g" 11 1, .commits "g" 0 11 1, .consumer .read] ++
    GroupLabel.assignsTo "g" ["alice", "bob"] 21 ++
    [.consumer (.wake false true), .consumer (.assign GroupLabel.grants (some 22)),
      .consumer (.wake true true)]
  have he : ∃ s, (shareGroupSystem "g").run {} labels = some s ∧
      s.Holds "g" "alice" 1 ∧ s.Holds "g" "bob" 1 :=
    ⟨_, rfl, ⟨_, List.mem_cons_self, rfl, rfl⟩, _, List.mem_cons_self, rfl, rfl⟩
  obtain ⟨s, he, hb⟩ := he
  exact ⟨s, System.reached_of_run he (.of_forall fun _ _ _ => trivial), hb⟩

end SkyTree.SharedSubscription
