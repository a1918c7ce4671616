import SkyTree.SharedSubscription.GroupInvariants

/-!
# The cursor of the consumer

The consumer reads pending tasks after its cursor and moves the cursor with every task it
handled. A task that becomes visible behind the cursor, or is skipped in the middle of a
batch, is not read again. As long as commits land ahead of the consumer and no claim
fails before the end of a batch, every task the cursor passed was claimed.
-/

namespace SkyTree.SharedSubscription

open Foundation Delivery List ShareGroupTask Consumer

/-! ## The positions the consumer holds -/

/-- The cursor in memory, the task at work and the rest of the batch. -/
def Consumer.line (consumer : Consumer) : List Position :=
  consumer.position.toList ++ (consumer.phase.task.toList.map ShareGroupTask.position ++
    consumer.batch.map ShareGroupTask.position)

def Consumer.Ordered (consumer : Consumer) : Prop := consumer.line.Pairwise (· < ·)

section Line

variable {con : Consumer} {task : ShareGroupTask}

theorem line_of_idle (hi : con.phase = .idle) :
    con.line = con.position.toList ++ con.batch.map ShareGroupTask.position := by
  simp [line, hi, Phase.task]

theorem line_withBatch (hi : con.phase = .idle) (batch : List ShareGroupTask) :
    ({ con with batch := batch } : Consumer).line =
      con.position.toList ++ batch.map ShareGroupTask.position :=
  line_of_idle hi

theorem line_of_task (hc : con.phase.task = some task) : con.line = con.position.toList ++
      (task.position :: con.batch.map ShareGroupTask.position) := by
  simp [line, hc]

end Line

theorem line_readShareGroupTasks (queue : ShareQueue) (last : Option Position) (limit : Nat) :
    (last.toList ++ (queue.readShareGroupTasks last limit).map ShareGroupTask.position).Pairwise
      (· < ·) := by
  have hs : (queue.readShareGroupTasks last limit).Pairwise fun a b =>
      a.position < b.position := by
    refine ((List.Pairwise.filter _ ?_).sublist (take_sublist _ _))
    cases last with
    | none => exact queue.tasks.sorted
    | some pos => exact queue.tasks.after_sorted pos
  refine pairwise_append.mpr ⟨?_, pairwise_map.mpr hs, ?_⟩
  · cases last <;> simp
  · intro pos inLast o inBatch
    obtain ⟨task, hm, rfl⟩ := mem_map.mp inBatch
    obtain rfl := Option.mem_toList.mp inLast
    exact (OrderedLog.mem_after.mp (mem_filter.mp (mem_of_mem_take hm)).1).2

theorem mem_or_lt_readShareGroupTasks {queue : ShareQueue} {last : Option Position}
    {task : ShareGroupTask} (hs : task ∈ queue.tasks) (hp : task.status = .pending)
    (ha : ∀ pos ∈ last, pos < task.position) (limit : Nat) :
    task ∈ queue.readShareGroupTasks last limit ∨
      ∀ o ∈ queue.readShareGroupTasks last limit, o.position < task.position := by
  have after : task ∈ queue.tasksAfter last := by
    cases last with
    | none => exact hs
    | some pos => exact OrderedLog.mem_after.mpr ⟨hs, ha pos rfl⟩
  have hl : task ∈ (queue.tasksAfter last).filter fun task => task.status = .pending :=
    mem_filter.mpr ⟨after, by simpa using hp⟩
  have sorted : ((queue.tasksAfter last).filter fun task => task.status = .pending).Pairwise
      fun a b => a.position < b.position := by
    refine List.Pairwise.filter _ ?_
    cases last with
    | none => exact queue.tasks.sorted
    | some pos => exact queue.tasks.after_sorted pos
  rw [← take_append_drop limit (List.filter _ _)] at hl sorted
  refine (mem_append.mp hl).imp_right fun hd o ht => ?_
  exact (pairwise_append.mp sorted).2.2 o ht task hd

/-! ## Order -/

namespace GroupState

variable {grp : String} {s next : GroupState} {act : ConsumerAction}

theorem line_sublist (hm : ConsumerMoves grp s act next)
    (hs : ∀ loaded, act ≠ .restart loaded) (noRead : act ≠ .read) :
    next.consumer.line.Sublist s.consumer.line := by
  cases hm with
  | restart loaded => exact absurd rfl (hs loaded)
  | read => exact absurd rfl noRead
  | @claimFailed task rest per hi hb =>
    rw [line_of_idle hi, hb]
    exact line_withBatch hi rest ▸ .append_left (.cons _ (.refl _)) _
  | claimed hi hb found hp =>
    rw [line_of_idle hi, hb]
    exact .refl _
  | taken hi hb hl =>
    rw [line_of_idle hi, hb]
    exact sublist_append_right _ _
  | candidates taken' chosen =>
    rw [line_of_task (congrArg Phase.task taken')]
    rcases chosen with rfl | rfl <;> exact .refl _
  | assigned ha found hf | assignFailed ha =>
    rw [line_of_task (congrArg Phase.task ha)]
    exact .refl _
  | woken hw =>
    rw [line_of_task (congrArg Phase.task hw)]
    exact sublist_append_right _ _
  | wakeFailed hw =>
    rw [line_of_task (congrArg Phase.task hw)]
    exact .refl _
  | revertFailed hr | reverted hr hc =>
    rw [line_of_task (congrArg Phase.task hr)]
    exact .append_left (.cons _ (.refl _)) _

theorem ordered_consumerMoves (ho : s.consumer.Ordered)
    (hm : ConsumerMoves grp s act next) : next.consumer.Ordered := by
  have hs := line_sublist hm
  cases hm with
  | restart loaded =>
    cases loaded <;> cases s.queue.cursor <;> simp [Consumer.Ordered, Consumer.line, Phase.task]
  | read hi hd =>
    rw [Consumer.Ordered, line_withBatch hi]
    exact line_readShareGroupTasks _ _ _
  | _ => exact ho.sublist (hs nofun nofun)

structure Regular (shareGroup : String) (s : GroupState) : Prop where
  sound : s.Sound shareGroup
  ordered : s.consumer.Ordered

theorem Regular.step {label : GroupLabel} (hr : s.Regular grp)
    (ht : (shareGroupSystem grp).step s label = some next) :
    next.Regular grp := by
  refine ⟨hr.sound.step ht, ?_⟩
  cases label with
  | consumer act => exact ordered_consumerMoves hr.ordered (.of_step ht)
  | rollback cid act =>
    exact consumer_of_rollbackMoves (.of_step ht) ▸ hr.ordered
  | environment act => exact consumer_of_environmentMoves (.of_step ht) ▸ hr.ordered

theorem regular_initial : ({} : GroupState).Regular grp := ⟨.initial, List.Pairwise.nil⟩

/-! ## Tasks the consumer will still meet -/

variable {pos : Position}

/-- Everything the consumer passed or holds lies before the position. -/
def Ahead (s : GroupState) (position : Position) : Prop :=
  (∀ passed ∈ s.queue.cursor, passed < position) ∧ ∀ held ∈ s.consumer.line, held < position

/-- The cursor has not reached the position, and the consumer holds it in its batch or holds
nothing beyond it. -/
def Waiting (s : GroupState) (position : Position) : Prop :=
  (∀ passed ∈ s.queue.cursor, passed < position) ∧
    (position ∈ s.consumer.batch.map ShareGroupTask.position ∨
      ∀ held ∈ s.consumer.line, held < position)

instance (position : Position) : Decidable (s.Ahead position) :=
  inferInstanceAs (Decidable (_ ∧ ∀ held ∈ s.consumer.line, _))

theorem Ahead.waiting (ha : s.Ahead pos) : s.Waiting pos := ⟨ha.1, .inr ha.2⟩

theorem Waiting.congr (hw : s.Waiting pos) (hc : next.queue.cursor = s.queue.cursor)
    (con : next.consumer = s.consumer) : next.Waiting pos := by
  rw [Waiting, hc, con]
  exact hw

variable {task : ShareGroupTask}

theorem Waiting.lt_of_task (hw : s.Waiting pos) (ho : s.consumer.Ordered)
    (hc : s.consumer.phase.task = some task) :
    task.position < pos := by
  rw [Consumer.Ordered, line_of_task hc] at ho
  rcases hw.2 with hb | beyond
  · exact (pairwise_cons.mp (pairwise_append.mp ho).2.1).1 pos hb
  · apply beyond
    rw [line_of_task hc]
    exact mem_append_right _ mem_cons_self

theorem Waiting.lt_of_head (hw : s.Waiting pos) (ho : s.consumer.Ordered)
    (hi : s.consumer.phase = .idle) {rest : List ShareGroupTask}
    (hb : s.consumer.batch = task :: rest) (ha : task.position ≠ pos) :
    task.position < pos := by
  have line := line_of_idle hi
  rw [hb, map_cons] at line
  rw [Consumer.Ordered, line] at ho
  rcases hw.2 with batched | beyond
  · rw [hb, map_cons] at batched
    rcases mem_cons.mp batched with he | hl
    · exact absurd he.symm ha
    · exact (pairwise_cons.mp (pairwise_append.mp ho).2.1).1 pos hl
  · apply beyond
    rw [line]
    exact mem_append_right _ mem_cons_self

theorem Waiting.lt_of_position (hw : s.Waiting pos) (ho : s.consumer.Ordered) :
    ∀ held ∈ s.consumer.position.toList, held < pos := by
  intro held hm
  rcases hw.2 with hb | beyond
  · exact (pairwise_append.mp ho).2.2 held hm pos (mem_append_right _ hb)
  · exact beyond held (mem_append_left _ hm)

theorem Waiting.tail (hw : s.Waiting pos) {rest : List ShareGroupTask}
    (hb : s.consumer.batch = task :: rest) (ha : task.position ≠ pos) :
    pos ∈ rest.map ShareGroupTask.position ∨ ∀ held ∈ s.consumer.line, held < pos := by
  refine hw.2.imp_left fun batched => ?_
  rw [hb, map_cons] at batched
  exact (mem_cons.mp batched).resolve_left (Ne.symm ha)

theorem advance_cursor_lt (hb : task.position < pos)
    (hw : ∀ passed ∈ s.queue.cursor, passed < pos) (per : Bool) :
    ∀ passed ∈ (s.advance task per).queue.cursor, passed < pos := by
  cases per with
  | true =>
    rintro _ ⟨⟩
    exact hb
  | false => exact hw

/-- A pending task that the consumer waits for stays one, unless the consumer takes it or drops
it in the middle of a batch. -/
theorem Waiting.consumerMoves {rec : ShareGroupTask} (waiting : s.Waiting rec.position)
    (stored : rec ∈ s.queue.tasks) (pending : rec.status = .pending)
    (ordered : s.consumer.Ordered) (moves : ConsumerMoves grp s act next)
    (apart : ∀ failed per, act = .claim failed per → ∀ task rest,
      s.consumer.batch = task :: rest → task.position = rec.position →
        failed = true ∧ rest = []) : next.Waiting rec.position := by
  have shrunk := line_sublist moves
  -- a step that keeps cursor and batch, or moves the cursor before the position
  have kept (sublist : next.consumer.line.Sublist s.consumer.line)
      (cursor : ∀ passed ∈ next.queue.cursor, passed < rec.position)
      (batch : rec.position ∈ next.consumer.batch.map ShareGroupTask.position ∨
        ∀ held ∈ s.consumer.line, held < rec.position) : next.Waiting rec.position :=
    ⟨cursor, batch.imp_right fun beyond held member => beyond held (sublist.subset member)⟩
  cases moves with
  | restart loaded =>
    refine ⟨waiting.1, .inr fun held member => ?_⟩
    cases loaded with
    | false => simp [Consumer.line, Phase.task] at member
    | true =>
      apply waiting.1
      simpa [Consumer.line, Phase.task] using member
  | read idle done =>
    have before := waiting.lt_of_position ordered
    have ahead : ∀ pos ∈ s.consumer.position, pos < rec.position :=
      fun pos member => before pos (Option.mem_toList.mpr member)
    refine ⟨waiting.1, (mem_or_lt_readShareGroupTasks stored pending ahead _).imp
      mem_map_of_mem fun earlier held member => ?_⟩
    rw [line_withBatch idle] at member
    rcases mem_append.mp member with inPosition | inBatch
    · exact before held inPosition
    · obtain ⟨task, inside, rfl⟩ := mem_map.mp inBatch
      exact earlier task inside
  | @claimFailed task rest per idle batch =>
    by_cases same : task.position = rec.position
    · -- the last of the batch is dropped: the next read starts before it
      obtain ⟨-, rfl⟩ := apart true per rfl task rest batch same
      refine ⟨waiting.1, .inr fun held member => waiting.lt_of_position ordered held ?_⟩
      rw [line_withBatch idle, map_nil, append_nil] at member
      exact member
    · exact kept (shrunk nofun nofun) waiting.1
        (waiting.tail batch same)
  | @claimed task found rest per idle batch _ _ =>
    have different : task.position ≠ rec.position := fun same =>
      nomatch (apart false per rfl task rest batch same).1
    exact kept (shrunk nofun nofun) waiting.1
      (waiting.tail batch different)
  | @taken task rest per idle batch lost =>
    have different : task.position ≠ rec.position := fun same =>
      nomatch (apart false per rfl task rest batch same).1
    exact kept (shrunk nofun nofun)
      (advance_cursor_lt (waiting.lt_of_head ordered idle batch different) waiting.1 per)
      (waiting.tail batch different)
  | @woken task rem selected per waking =>
    have current : s.consumer.phase.task = some task := by rw [waking]; rfl
    exact kept (shrunk nofun nofun)
      (advance_cursor_lt (waiting.lt_of_task ordered current) waiting.1 per) waiting.2
  | reverted reverting changed =>
    refine kept (shrunk nofun nofun) ?_ waiting.2
    cases changed <;> exact waiting.1
  | _ =>
    exact kept (shrunk nofun nofun) waiting.1 waiting.2

/-! ## Unclaimed tasks -/

def Tracked (s : GroupState) : Prop :=
  ∀ task ∈ s.queue.tasks, task.status = .pending → task.taskID ∉ s.claimed →
    s.Waiting task.position

/-- The condition on a step: a commit lands ahead of all the consumer has read, and a claim that
fails is the last of its batch or of a task that was claimed before. -/
def Orderly (s : GroupState) : GroupLabel → Prop
  | .environment (.commit task) => s.Ahead task.position
  | .consumer (.claim true _) =>
    match s.consumer.batch with
    | [] => True
    | task :: rest => rest = [] ∨ task.taskID ∈ s.claimed
  | _ => True

theorem unclaimed_before (sound : s.Sound grp)
    (hm : ConsumerMoves grp s act next) (hs : task ∈ next.queue.tasks)
    (hp : task.status = .pending) (hu : task.taskID ∉ next.claimed) :
    task ∈ s.queue.tasks ∧ task.taskID ∉ s.claimed := by
  cases hm with
  | claimed hi batch found he =>
    obtain ⟨hh, -⟩ := ShareQueue.findShareTask_eq_some found
    rcases (sound.distinct.mem_setStatus_iff hh .processing).mp hs with rfl | ⟨old, -⟩
    · simp at hp
    · exact ⟨old, fun taken' => hu (mem_cons_of_mem _ taken')⟩
  | @taken head rest per hi batch hl | @woken head rem selected per hw =>
    refine ⟨?_, hu⟩
    cases per <;> exact hs
  | reverted reverting hc =>
    rcases hc.cases_rewrites sound.distinct with rfl | ⟨old, hh, -, status, hr⟩
    · exact ⟨hs, hu⟩
    · rcases (hr.mem_iff task).mp hs with rfl | ⟨hb, -⟩
      · rw [withStatus_taskID] at hu
        exact absurd (sound.held old hh (.inl status)) hu
      · exact ⟨hb, hu⟩
  | _ => exact ⟨hs, hu⟩

theorem Tracked.consumerMoves (ht : s.Tracked) (sound : s.Sound grp)
    (ho : s.consumer.Ordered) (met : s.Orderly (.consumer act))
    (hm : ConsumerMoves grp s act next) : next.Tracked := by
  intro task hs hp hu
  obtain ⟨hb, notYet⟩ := unclaimed_before sound hm hs hp hu
  refine (ht task hb hp notYet).consumerMoves hb hp ho hm ?_
  rintro failed per rfl head rest batch he
  have idEq := taskID_eq_of_position_eq he
  cases hm with
  | claimFailed hi hc =>
    simp only [Orderly, batch] at met
    exact ⟨rfl, met.resolve_right (idEq ▸ notYet)⟩
  | claimed hi hc found want =>
    obtain ⟨rfl, rfl⟩ := List.cons.inj (batch.symm.trans hc)
    exact absurd (idEq ▸ mem_cons_self) hu
  | taken hi hc hl =>
    obtain ⟨rfl, rfl⟩ := List.cons.inj (batch.symm.trans hc)
    exact absurd hp (hl task (idEq ▸ sound.distinct.find hb))

theorem Tracked.rewrite (ht : s.Tracked) {tid : UUID} {rec : ShareGroupTask}
    {queue : ShareQueue} (hr : Rewrites s.queue queue tid rec)
    (hw : rec.status = .pending → tid ∈ s.claimed ∨ s.Ahead rec.position) :
    ({ s with queue := queue } : GroupState).Tracked := by
  intro task hs hp hu
  have waits : s.Waiting task.position := by
    rcases (hr.mem_iff task).mp hs with rfl | ⟨old, -⟩
    · rcases hw hp with hc | ha
      · exact absurd (hr.identified ▸ hc) hu
      · exact ha.waiting
    · exact ht task old hp hu
  exact waits.congr hr.cursor rfl

theorem Tracked.statusChange (ht : s.Tracked) (sound : s.Sound grp)
    {queue : ShareQueue} {tid : UUID} {oldStatus newStatus : TaskStatus} {updated : Bool}
    (hc : StatusChange s.queue tid oldStatus newStatus s.clock queue updated)
    (hh : newStatus = .pending → oldStatus = .processing) :
    ({ s with queue := queue } : GroupState).Tracked := by
  rcases hc.cases_rewrites sound.distinct with rfl | ⟨old, hs, rfl, status, hr⟩
  · exact ht
  · refine ht.rewrite hr fun hp => .inl (sound.held old hs (.inl ?_))
    rw [withStatus_status] at hp
    rw [status, hh hp]

theorem Tracked.rollbackMoves (ht : s.Tracked) (hs : s.Sound grp)
    {cid : ClientID} {act : RollbackAction}
    (hm : RollbackMoves grp s cid act next) : next.Tracked := by
  cases hm with
  | marked marks hf status =>
    have change : StatusChange s.queue _ .processing .rolledBack s.clock _ _ := .made hf status
    exact ht.statusChange hs change fun hp => by cases hp
  | @rolledBack task rest back queue ready hc =>
    have own := hs.listed cid task (by rw [ready]; exact mem_cons_self)
    rcases hc.cases_rewrites hs.distinct with ⟨rfl, -⟩ | ⟨rec, -, -, hr, -⟩
    · exact ht
    · exact ht.rewrite hr fun _ => .inl own.1
  | _ => exact ht

theorem Tracked.environmentMoves (trace : s.Tracked) (hs : s.Sound grp)
    {act : EnvironmentAction} (met : s.Orderly (.environment act))
    (hm : EnvironmentMoves grp s act next) : next.Tracked := by
  cases hm with
  | commit ht =>
    have new := (hs.appendingNew _ ht).2
    exact trace.rewrite (.of_append new) fun _ => .inr met
  | requeue hc => exact trace.statusChange hs hc fun _ => rfl
  | complete hc => exact trace.statusChange hs hc fun hp => by cases hp
  | _ => exact trace

structure Tracking (shareGroup : String) (s : GroupState) : Prop extends s.Regular shareGroup where
  tracked : s.Tracked

theorem Tracking.step {label : GroupLabel} (trace : s.Tracking grp)
    (met : s.Orderly label) (ht : (shareGroupSystem grp).step s label = some next) :
    next.Tracking grp := by
  obtain ⟨hr, tracked⟩ := trace
  refine ⟨hr.step ht, ?_⟩
  cases label with
  | consumer act =>
    exact tracked.consumerMoves hr.sound hr.ordered met (.of_step ht)
  | rollback cid act => exact tracked.rollbackMoves hr.sound (.of_step ht)
  | environment act => exact tracked.environmentMoves hr.sound met (.of_step ht)

theorem tracking_of_reached (hr : (shareGroupSystem grp).Reached Orderly {} s) :
    s.Tracking grp := by
  have hi : ({} : GroupState).Tracking grp :=
    ⟨regular_initial, fun task hm => absurd hm (OrderedLog.not_mem_empty task)⟩
  exact hr.invariant hi fun _ _ _ trace met ht => trace.step met ht

end GroupState

/-- In an orderly run a pending task at or before the persisted cursor has been claimed. -/
theorem claimed_of_pending_behind_cursor {shareGroup : String} {s : GroupState}
    (reached : (shareGroupSystem shareGroup).Reached GroupState.Orderly {} s)
    {task : ShareGroupTask} (stored : task ∈ s.queue.tasks) (pending : task.status = .pending)
    {cursor : Position} (persisted : s.queue.cursor = some cursor)
    (behind : task.position ≤ cursor) : task.taskID ∈ s.claimed := by
  by_contra hu
  have ht := GroupState.tracking_of_reached reached
  exact absurd ((ht.tracked task stored pending hu).1 cursor persisted) (not_lt.mpr behind)

/-- Two tasks are published; no member is online for the first, the second is delivered, and the
cursor passes the first. -/
theorem claimed_of_pending_behind_cursor_skipped :
    ∃ s, (shareGroupSystem "g").Reached GroupState.Orderly {} s ∧
      ∃ task ∈ s.queue.tasks, task.status = .pending ∧
        (∃ cursor, s.queue.cursor = some cursor ∧ task.position ≤ cursor) ∧
        task.taskID ∈ s.claimed := by
  let labels : List GroupLabel :=
    [.begins "g" 11 1, .commits "g" 0 11 1, .begins "g" 12 2, .commits "g" 0 12 2,
      .consumer .read, .consumer (.claim false true), .consumer (.candidates []),
      .consumer (.revert false)] ++
    GroupLabel.assignsTo "g" ["alice"] 21 ++ [.consumer (.wake true true)]
  have he : ∃ s, (shareGroupSystem "g").run {} labels = some s ∧
      ∃ task ∈ s.queue.tasks.entries, task.status = .pending ∧
        ∃ cursor, s.queue.cursor = some cursor ∧ task.position ≤ cursor :=
    ⟨_, rfl, _, mem_cons_self, by decide, _, rfl, by decide⟩
  obtain ⟨s, he, task, hs, hp, cursor, stays, hb⟩ := he
  have hr : (shareGroupSystem "g").Reached GroupState.Orderly {} s := by
    refine System.reached_of_run he ⟨trivial, ?_, trivial, ?_, trivial, trivial, trivial,
      trivial, trivial, trivial, trivial, trivial, trivial⟩
    all_goals
      change GroupState.Ahead _ _
      decide
  exact ⟨s, hr, task, hs, hp, ⟨cursor, stays, hb⟩,
    claimed_of_pending_behind_cursor hr hs hp stays hb⟩

/-- The append of an older task commits after the consumer moved on. -/
theorem pending_unclaimed_behind_cursor :
    ∃ s, (shareGroupSystem "g").Reached (fun _ _ => True) {} s ∧
      ∃ task ∈ s.queue.tasks, task.status = .pending ∧
        (∃ cursor, s.queue.cursor = some cursor ∧ task.position ≤ cursor) ∧
        task.taskID ∉ s.claimed := by
  let labels : List GroupLabel :=
    [.begins "g" 11 1, .environment .tick, .begins "g" 12 2, .commits "g" 1 12 2,
      .consumer .read] ++
    GroupLabel.assignsTo "g" ["alice"] 21 ++
    [.consumer (.wake true true), .commits "g" 0 11 1]
  have he : ∃ s, (shareGroupSystem "g").run {} labels = some s ∧
      ∃ task ∈ s.queue.tasks.entries, task.status = .pending ∧
        (∃ cursor, s.queue.cursor = some cursor ∧ task.position ≤ cursor) ∧
        task.taskID ∉ s.claimed :=
    ⟨_, rfl, _, mem_cons_self, by decide, ⟨_, rfl, by decide⟩, by decide⟩
  obtain ⟨s, he, hu⟩ := he
  exact ⟨s, System.reached_of_run he (.of_forall fun _ _ _ => trivial), hu⟩

end SkyTree.SharedSubscription
