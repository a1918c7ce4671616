import SkyTree.Delivery.Store
import SkyTree.Foundation.Transition

/-!
# Publishers and the reader of one queue

A publisher takes the timestamp of a task before its append commits, so tasks can
reach the store in another order than that of their keys. The reader only moves
forward. A task that commits behind a position already read is never returned.
-/

namespace SkyTree.Delivery

open Foundation List OrderedLog ClientQueue

/-- A queue between its publishers and the runner of its client. `stamped` are the
tasks of publishers between `time.Now` and the commit of their append; `appended`,
`returned`, `handled` (what the runner moved past) and `reads` record the past. -/
structure Publishing where
  clock : Nat := 0
  queue : ClientQueue
  stamped : List DeliveryTask := []
  appended : List DeliveryTask
  last : Position
  batch : List DeliveryTask := []
  returned : List DeliveryTask := []
  handled : List DeliveryTask := []
  reads : Nat := 0

inductive PublishingLabel where
  | tick
  | stamp (task : DeliveryTask)
  | commit (task : DeliveryTask)
  | read
  | process
  | abandon
  | advance (task : DeliveryTask)
  | restart (start : Position)

namespace Publishing

def initial (queue : ClientQueue) : Publishing where
  queue := queue
  appended := queue.tasks.entries
  last := queue.cursor.getD beforeAllTasks

variable (s : Publishing)

/-- `routePublishClientMode` after `time.Now`; the task gets a fresh identifier. -/
def stamp (task : DeliveryTask) : Option Publishing :=
  if task.ts = s.clock ∧ task.taskID ≠ UUID.nil ∧
      ∀ known ∈ s.stamped ++ s.appended, known.taskID ≠ task.taskID then
    some { s with stamped := task :: s.stamped }
  else none

def commit (task : DeliveryTask) : Option Publishing :=
  if task ∈ s.stamped then
    let result := s.queue.appendTask task
    some { s with
      queue := result.1
      stamped := s.stamped.erase task
      appended := if result.2 then task :: s.appended else s.appended }
  else none

/-- `readDeliveryTasksForRunner` once the last batch is used up. -/
def read : Option Publishing :=
  if s.batch = [] then
    let tasks := s.queue.readTasks s.last 200
    some { s with batch := tasks, returned := tasks ++ s.returned, reads := s.reads + 1 }
  else none

def process : Option Publishing :=
  match s.batch with
  | [] => none
  | task :: rest =>
    some { s with last := task.position, batch := rest, handled := task :: s.handled }

/-- The cursor moves to a task that was acknowledged, or dropped while it is handled. -/
def advance (task : DeliveryTask) : Option Publishing :=
  if task ∈ s.handled ++ s.batch.take 1 then
    some { s with queue := (s.queue.advanceCursor task.position).1 }
  else none

/-- A new connection reads from the cursor, or replays or skips what was handled before. -/
def restart (start : Position) : Option Publishing :=
  if start ≤ s.queue.cursor.getD beforeAllTasks ∨ ∃ task ∈ s.handled, start ≤ task.position then
    some { s with last := start, batch := [] }
  else none

end Publishing

def publishing : System Publishing PublishingLabel where
  step s label :=
    match label with
    | .tick => some { s with clock := s.clock + 1 }
    | .stamp task => s.stamp task
    | .commit task => s.commit task
    | .read => s.read
    | .process => s.process
    | .abandon => some { s with batch := [] }
    | .advance task => s.advance task
    | .restart start => s.restart start

namespace Publishing

/-- An append commits after what the runner moved past or still holds in its batch. -/
def CommitsInOrder (s : Publishing) : PublishingLabel → Prop
  | .commit task =>
    (∀ read ∈ s.handled ++ s.batch, read.position < task.position) ∧
      ¬ s.queue.Passed task.position
  | _ => True

/-- As above, and the runner stays and works through what it reads. -/
def Steady (s : Publishing) : PublishingLabel → Prop
  | .abandon => False
  | .restart _ => False
  | label => s.CommitsInOrder label

structure UnreadIn (appended returned : List DeliveryTask) (task : DeliveryTask) : Prop where
  appended : task ∈ appended
  notReturned : task ∉ returned

abbrev Unread (s : Publishing) : DeliveryTask → Prop := UnreadIn s.appended s.returned

def Placed (s : Publishing) : Prop :=
  (∀ position, beforeAllTasks < position → ¬ s.queue.Passed position → s.last < position) ∨
    ∃ task ∈ s.handled, s.last ≤ task.position

structure Invariant (s : Publishing) : Prop where
  queued : ∀ task ∈ s.queue.tasks, task ∈ s.appended
  returned : ∀ task ∈ s.returned, task ∈ s.appended
  batch : ∀ task ∈ s.batch, task ∈ s.returned
  sorted : s.batch.Pairwise fun a b => a.position < b.position
  after : ∀ task ∈ s.batch, s.last < task.position
  positive : ∀ task ∈ s.stamped ++ s.appended, beforeAllTasks < task.position
  distinct : ((s.stamped ++ s.appended).map DeliveryTask.position).Nodup
  placed : s.Placed
  order : ∀ read ∈ s.handled ++ s.batch, ∀ task, s.Unread task → read.position < task.position
  kept : ∀ task, s.Unread task → task ∈ s.queue.tasks ∧ ¬ s.queue.Passed task.position

variable {s next : Publishing} {que : ClientQueue}

theorem last_lt_of_le_cursor {start position : Position}
    (hb : start ≤ que.cursor.getD beforeAllTasks) (hp : beforeAllTasks < position)
    (ha : ¬ que.Passed position) : start < position := by
  cases hf : que.cursor with
  | none =>
    rw [hf] at hb
    exact lt_of_le_of_lt hb hp
  | some cursor =>
    rw [hf] at hb
    refine lt_of_le_of_lt hb (not_le.mp fun hr => ha ?_)
    exact ⟨cursor, hf, hr⟩

variable {task : DeliveryTask}

theorem Invariant.last_lt (hi : s.Invariant) (hu : s.Unread task) : s.last < task.position := by
  have hp := hi.positive task (mem_append_right _ hu.appended)
  rcases hi.placed with hb | ⟨read, back, hr⟩
  · exact hb _ hp (hi.kept task hu).2
  · exact lt_of_le_of_lt hr (hi.order read (mem_append_left _ back) task hu)

theorem initial_invariant
    (ahead : ∀ task ∈ que.tasks, que.cursor.getD beforeAllTasks < task.position) :
    (initial que).Invariant where
  queued _ stored := stored
  returned _ none := nomatch none
  batch _ none := nomatch none
  sorted := List.Pairwise.nil
  after _ none := nomatch none
  positive task stored := lt_of_le_of_lt (beforeAllTasks_le _) (ahead task stored)
  distinct := pairwise_map.mpr (que.tasks.sorted.imp fun below => ne_of_lt below)
  placed := .inl fun _ positive notPassed => last_lt_of_le_cursor le_rfl positive notPassed
  order _ none := nomatch none
  kept task unread := by
    refine ⟨unread.appended, ?_⟩
    rintro ⟨cursor, found, reached⟩
    have before := ahead task unread.appended
    rw [show que.cursor = some cursor from found] at before
    exact absurd reached (not_le.mpr before)

theorem stamp_invariant (hi : s.Invariant) (ht : s.stamp task = some next) : next.Invariant := by
  obtain ⟨⟨-, hn, hf⟩, rfl⟩ := of_guard ht
  have hp : beforeAllTasks < task.position := by
    refine lt_of_le_of_ne (beforeAllTasks_le _) fun heq => hn ?_
    exact (congrArg (fun pos => (ofLex pos).2) heq).symm
  refine { hi with positive := ?_, distinct := ?_ }
  · intro known hm
    rcases mem_cons.mp hm with rfl | old
    · exact hp
    · exact hi.positive known old
  · refine nodup_cons.mpr ⟨fun hc => ?_, hi.distinct⟩
    obtain ⟨known, hm, heq⟩ := mem_map.mp hc
    exact hf known hm (congrArg (fun pos => (ofLex pos).2) heq)

theorem read_invariant (invariant : s.Invariant) (taken : s.read = some next) : next.Invariant := by
  obtain ⟨-, rfl⟩ := of_guard taken
  have fromQueue : ∀ task ∈ s.queue.readTasks s.last 200,
      task ∈ s.queue.tasks ∧ s.last < task.position :=
    fun task member => mem_after.mp (mem_of_mem_take member)
  have older {task : DeliveryTask} (unread : task ∈ s.appended)
      (notReturned : task ∉ s.queue.readTasks s.last 200 ++ s.returned) : s.Unread task :=
    ⟨unread, fun old => notReturned (mem_append_right _ old)⟩
  refine { invariant with
    returned := ?_, batch := ?_, sorted := ?_, after := ?_, order := ?_, kept := ?_ }
  · intro task member
    rcases mem_append.mp member with new | old
    · exact invariant.queued task (fromQueue task new).1
    · exact invariant.returned task old
  · exact fun task member => mem_append_left _ member
  · exact (s.queue.tasks.after_sorted s.last).sublist (take_sublist _ _)
  · exact fun task member => (fromQueue task member).2
  · rintro read held task ⟨appended, notReturned⟩
    have unread := older appended notReturned
    rcases mem_append.mp held with handled | new
    · exact invariant.order read (mem_append_left _ handled) task unread
    · exact take_after_complete (invariant.kept task unread).1
        (invariant.last_lt unread) (fun hit => notReturned (mem_append_left _ hit)) new
  · rintro task ⟨appended, notReturned⟩
    exact invariant.kept task (older appended notReturned)

theorem process_invariant (invariant : s.Invariant) (taken : s.process = some next) :
    next.Invariant := by
  unfold process at taken
  split at taken
  · cases taken
  · next task rest head =>
      cases taken
      have sorted := invariant.sorted
      rw [head] at sorted
      obtain ⟨after, sorted⟩ := pairwise_cons.mp sorted
      exact { invariant with
        batch := fun later member => invariant.batch later (by simp [head, member])
        sorted := sorted
        after := after
        placed := .inr ⟨task, mem_cons_self, le_rfl⟩
        order := fun read held => by
          refine invariant.order read ?_
          rw [head]
          exact perm_middle.mem_iff.mpr held }

theorem abandon_invariant (invariant : s.Invariant) : Invariant { s with batch := [] } :=
  { invariant with
    batch := nofun
    sorted := List.Pairwise.nil
    after := nofun
    order := fun read held => invariant.order read (mem_append_left _ (by simpa using held)) }

theorem advance_invariant (invariant : s.Invariant) (taken : s.advance task = some next) :
    next.Invariant := by
  obtain ⟨handled, rfl⟩ := of_guard taken
  have held := ((Sublist.refl s.handled).append (take_sublist 1 s.batch)).subset handled
  refine { invariant with queued := ?_, placed := ?_, kept := ?_ }
  · exact fun other stored =>
      invariant.queued other (mem_of_mem_advanceCursor stored)
  · refine invariant.placed.imp (fun behind position positive notPassed => ?_) id
    exact behind position positive fun passed =>
      notPassed (passed_advanceCursor_iff.mpr (.inl passed))
  · intro other unread
    obtain ⟨stored, ahead⟩ := invariant.kept other unread
    have behind := invariant.order task held other unread
    refine ⟨mem_advanceCursor_of_lt stored behind, fun passed => ?_⟩
    rcases passed_advanceCursor_iff.mp passed with old | reached
    · exact ahead old
    · exact absurd behind (not_lt.mpr reached)

theorem restart_invariant (hi : s.Invariant) {start : Position}
    (ht : s.restart start = some next) : next.Invariant := by
  obtain ⟨ha, rfl⟩ := of_guard ht
  exact { abandon_invariant hi with
    placed := ha.imp (fun hb _ => last_lt_of_le_cursor hb) id
    after := nofun }

theorem accepted_invariant (hi : s.Invariant) (stamped' : task ∈ s.stamped)
    (order : s.CommitsInOrder (.commit task)) (hs : que.tasks = s.queue.tasks.insert task)
    (curEq : que.cursor = s.queue.cursor) :
    Invariant { s with
      queue := que
      stamped := s.stamped.erase task
      appended := task :: s.appended } := by
  have moved : (s.stamped.erase task ++ task :: s.appended).Perm (s.stamped ++ s.appended) :=
    perm_middle.trans ((perm_cons_erase stamped').symm.append_right _)
  have iff' (position : Position) : que.Passed position ↔ s.queue.Passed position := by
    unfold ClientQueue.Passed
    rw [curEq]
  have hne : ∀ other ∈ s.appended, other.position ≠ task.position := by
    have hd := (moved.map DeliveryTask.position).nodup_iff.mpr hi.distinct
    rw [map_append, map_cons] at hd
    have hh := (nodup_cons.mp (nodup_append.mp hd).2.1).1
    intro other hm he
    exact hh (he ▸ mem_map_of_mem hm)
  constructor
  · intro other hm
    rw [hs] at hm
    rcases mem_insert.mp hm with rfl | ⟨old, -⟩
    · exact mem_cons_self
    · exact mem_cons_of_mem _ (hi.queued other old)
  · exact fun other hm => mem_cons_of_mem _ (hi.returned other hm)
  · exact hi.batch
  · exact hi.sorted
  · exact hi.after
  · exact fun other hm => hi.positive other (moved.mem_iff.mp hm)
  · exact (moved.map DeliveryTask.position).nodup_iff.mpr hi.distinct
  · refine hi.placed.imp (fun hb position hp notPassed => ?_) id
    exact hb position hp ((iff' position).not.mp notPassed)
  · rintro read hr other ⟨ha, unread⟩
    rcases mem_cons.mp ha with rfl | old
    · exact order.1 read hr
    · exact hi.order read hr other ⟨old, unread⟩
  · rintro other ⟨ha, unread⟩
    rw [hs]
    refine ⟨?_, (iff' _).not.mpr ?_⟩
    · rcases mem_cons.mp ha with rfl | old
      · exact mem_insert.mpr (.inl rfl)
      · exact mem_insert.mpr (.inr ⟨(hi.kept other ⟨old, unread⟩).1, hne other old⟩)
    · rcases mem_cons.mp ha with rfl | old
      · exact order.2
      · exact (hi.kept other ⟨old, unread⟩).2

theorem commit_invariant (hi : s.Invariant) (order : s.CommitsInOrder (.commit task))
    (ht : s.commit task = some next) :
    next.Invariant := by
  obtain ⟨stamped, rfl⟩ := of_guard ht
  cases hp : s.queue.deliveryTaskExists task.messageID with
  | true =>
    simp only [appendTask_of_present hp]
    have fewer : (s.stamped.erase task).Sublist s.stamped := erase_sublist
    exact { hi with
      positive other member := hi.positive other ((fewer.append_right _).subset member)
      distinct := ((fewer.append_right _).map _).nodup hi.distinct }
  | false =>
    simp only [appendTask_snd, hp]
    exact accepted_invariant hi stamped order (appendTask_tasks_of_absent hp)
      (appendTask_cursor _ _)

theorem step_invariant {label : PublishingLabel} (invariant : s.Invariant)
    (inOrder : s.CommitsInOrder label) (taken : publishing.step s label = some next) :
    next.Invariant := by
  cases label with
  | tick =>
    cases taken
    exact { invariant with }
  | stamp task => exact stamp_invariant invariant taken
  | commit task => exact commit_invariant invariant inOrder taken
  | read => exact read_invariant invariant taken
  | process => exact process_invariant invariant taken
  | abandon =>
    cases taken
    exact abandon_invariant invariant
  | advance task => exact advance_invariant invariant taken
  | restart start => exact restart_invariant invariant taken

theorem commitsInOrder_of_steady {label : PublishingLabel} (hs : s.Steady label) :
    s.CommitsInOrder label := by
  cases label with
  | commit task => exact hs
  | _ => trivial

section Progress

def behind (s : Publishing) : Nat :=
  s.appended.countP fun task => decide (task.position ≤ s.last)

def ReadsBound (base : Nat) (task : DeliveryTask) (s : Publishing) : Prop :=
  task ∈ s.returned ∨ s.reads ≤ base + s.behind + if s.batch = [] then 0 else 1

variable {task : DeliveryTask}

theorem behind_process (rest handled : List DeliveryTask) (added : task ∈ s.appended)
    (ha : s.last < task.position) :
    s.behind + 1 ≤ behind { s with last := task.position, batch := rest, handled := handled } := by
  have hg : ∀ tasks : List DeliveryTask, task ∈ tasks →
      tasks.countP (fun t => decide (t.position ≤ s.last)) + 1 ≤
        tasks.countP fun t => decide (t.position ≤ task.position) := by
    intro tasks hm
    obtain ⟨front, back, rfl⟩ := append_of_mem hm
    have mono (part : List DeliveryTask) : part.countP (fun t => decide (t.position ≤ s.last)) ≤
          part.countP fun t => decide (t.position ≤ task.position) := by
      apply countP_mono_left
      intro t _ hr
      exact decide_eq_true ((of_decide_eq_true hr).trans ha.le)
    have frontMono := mono front
    have backMono := mono back
    simp only [countP_append, countP_cons, not_le.mpr ha, le_refl, decide_true,
      decide_false, Bool.false_eq_true, if_true, if_false]
    omega
  exact hg s.appended added

variable {base : Nat}

theorem read_bound (hi : s.Invariant) (ha : task ∈ s.appended)
    (hb : ReadsBound base task s) (ht : s.read = some next) : ReadsBound base task next := by
  obtain ⟨idle, rfl⟩ := of_guard ht
  by_cases back : task ∈ s.returned
  · exact .inl (mem_append_right _ back)
  · have hu : s.Unread task := ⟨ha, back⟩
    have some : s.queue.readTasks s.last 200 ≠ [] :=
      take_after_ne_nil (hi.kept task hu).1 (hi.last_lt hu) (by decide)
    have hr := hb.resolve_left back
    simp only [idle, if_true] at hr
    refine .inr ?_
    simp only [some, if_false]
    exact Nat.add_le_add_right hr 1

theorem process_bound (hi : s.Invariant) (hb : ReadsBound base task s)
    (ht : s.process = some next) :
    ReadsBound base task next := by
  unfold process at ht
  split at ht
  · cases ht
  · next head rest batch =>
      cases ht
      refine hb.imp id fun hr => ?_
      simp only [batch, reduceCtorEq, if_false] at hr
      have hm : head ∈ s.batch := by simp [batch]
      have hg := behind_process rest (head :: s.handled) (hi.returned head (hi.batch head hm))
        (hi.after head hm)
      show s.reads ≤ _
      omega

theorem commit_bound {o : DeliveryTask} (hb : ReadsBound base task s)
    (ht : s.commit o = some next) :
    ReadsBound base task next := by
  obtain ⟨-, rfl⟩ := of_guard ht
  refine hb.imp id fun hr => hr.trans ?_
  refine Nat.add_le_add_right (Nat.add_le_add_left ?_ _) _
  unfold behind
  dsimp only
  split
  · rw [countP_cons]
    exact Nat.le_add_right _ _
  · exact le_rfl

theorem appended_mono {label : PublishingLabel} (ht : publishing.step s label = some next) :
    ∀ task ∈ s.appended, task ∈ next.appended := by
  intro task hm
  cases label with
  | commit o =>
    obtain ⟨-, rfl⟩ := of_guard ht
    dsimp only
    split
    · exact mem_cons_of_mem _ hm
    · exact hm
  | process =>
    cases hh : s.batch with
    | nil => simp [publishing, process, hh] at ht
    | cons first rest =>
      simp only [publishing, process, hh] at ht
      cases ht
      exact hm
  | tick | abandon =>
    cases ht
    exact hm
  | _ =>
    obtain ⟨-, rfl⟩ := of_guard ht
    exact hm

theorem step_bound {label : PublishingLabel} (hi : s.Invariant)
    (ha : task ∈ s.appended) (hb : ReadsBound base task s) (hs : s.Steady label)
    (ht : publishing.step s label = some next) :
    ReadsBound base task next := by
  cases label with
  | commit o => exact commit_bound hb ht
  | read => exact read_bound hi ha hb ht
  | process => exact process_bound hi hb ht
  | tick =>
    cases ht
    exact hb
  | stamp o | advance o =>
    obtain ⟨-, rfl⟩ := of_guard ht
    exact hb
  | abandon | restart start => exact hs.elim

theorem returned_of_reads (hi : s.Invariant) (added : task ∈ s.appended)
    {later : Publishing} (goes : publishing.Reached Steady s later)
    (reads : s.reads + later.appended.length < later.reads) : task ∈ later.returned := by
  have hp : later.Invariant ∧ task ∈ later.appended ∧ ReadsBound s.reads task later := by
    apply goes.invariant
    · exact ⟨hi, added, .inr (by omega)⟩
    · rintro t label next ⟨inv', hm, hb⟩ hs ht
      exact ⟨step_invariant inv' (commitsInOrder_of_steady hs) ht,
        appended_mono ht task hm, step_bound inv' hm hb hs ht⟩
  obtain ⟨laterInvariant, hm, hb⟩ := hp
  by_contra unread
  have ha := laterInvariant.last_lt ⟨hm, unread⟩
  have some : later.behind < later.appended.length := by
    refine lt_of_le_of_ne countP_le_length fun all => ?_
    have hr := countP_eq_length.mp all task hm
    exact absurd ha (not_lt.mpr (of_decide_eq_true hr))
  have hc := hb.resolve_left unread
  split at hc <;> omega

theorem drain (s : Publishing) : ∃ later, publishing.Reached Steady s later ∧
    later.batch = [] ∧ later.reads = s.reads ∧ later.appended = s.appended := by
  induction rest' : s.batch generalizing s with
  | nil => exact ⟨s, .refl, rest', rfl, rfl⟩
  | cons task rest ih =>
    let moved := { s with last := task.position, batch := rest, handled := task :: s.handled }
    have ht : publishing.step s .process = some moved := by
      simp [publishing, process, rest', moved]
    obtain ⟨later, hc, hi, hr, ha⟩ := ih moved rfl
    exact ⟨later, (System.Reached.refl.step trivial ht).trans hc, hi, hr, ha⟩

theorem readMore (s : Publishing) (n : Nat) : ∃ later, publishing.Reached Steady s later ∧
    later.reads = s.reads + n ∧ later.appended = s.appended := by
  induction n with
  | zero => exact ⟨s, .refl, rfl, rfl⟩
  | succ n ih =>
    obtain ⟨mid, first, hr, ha⟩ := ih
    obtain ⟨ready, hs, hi, readsEq, addEq⟩ := drain mid
    have ht : publishing.step ready .read = some { ready with
        batch := ready.queue.readTasks ready.last 200
        returned := ready.queue.readTasks ready.last 200 ++ ready.returned
        reads := ready.reads + 1 } := by
      simp [publishing, read, hi]
    have steady : ready.Steady .read := trivial
    refine ⟨_, (first.trans hs).step steady ht, ?_, ?_⟩
    · show ready.reads + 1 = s.reads + (n + 1)
      omega
    · exact addEq.trans ha

end Progress

/-- When appends commit after what the runner moved past or holds, no appended task is passed by
the cursor or deleted unread; while the runner works, it is returned after at most as many reads
as there are appended tasks, and the runner can always make them. -/
theorem appended_task_returned {queue : ClientQueue}
    (ahead : ∀ task ∈ queue.tasks, queue.cursor.getD beforeAllTasks < task.position)
    (reached : publishing.Reached CommitsInOrder (initial queue) s) {task : DeliveryTask}
    (appended : task ∈ s.appended) :
    (task ∈ s.returned ∨ task ∈ s.queue.tasks ∧ ¬ s.queue.Passed task.position) ∧
      (∀ later, publishing.Reached Steady s later →
        s.reads + later.appended.length < later.reads → task ∈ later.returned) ∧
      ∃ later, publishing.Reached Steady s later ∧ task ∈ later.returned := by
  have hi := reached.invariant (initial_invariant ahead) fun _ _ _ => step_invariant
  refine ⟨?_, fun later => returned_of_reads hi appended, ?_⟩
  · by_cases back : task ∈ s.returned
    · exact .inl back
    · exact .inr (hi.kept task ⟨appended, back⟩)
  · obtain ⟨later, hc, hr, addEq⟩ := readMore s (s.appended.length + 1)
    refine ⟨later, hc, returned_of_reads hi appended hc ?_⟩
    rw [addEq, hr]
    omega

def stampedAt (ts n : Nat) : DeliveryTask where
  ts := ts
  taskID := n
  messageID := n
  deliveryQoS := 1

/-- The batch with the later task is given up before the earlier one commits between the
cursor and it; the next read returns both. -/
theorem appended_task_returned_in_order :
    ∃ s, publishing.Reached CommitsInOrder (initial .empty) s ∧ stampedAt 0 1 ∈ s.appended ∧
      stampedAt 0 1 ∉ s.returned ∧
      ∃ later, publishing.Reached Steady s later ∧ stampedAt 0 1 ∈ later.returned := by
  have taken : ∃ s, publishing.run (initial .empty)
        [.stamp (stampedAt 0 1), .tick, .stamp (stampedAt 1 2), .commit (stampedAt 1 2), .read,
          .abandon, .commit (stampedAt 0 1)] = some s ∧
      stampedAt 0 1 ∈ s.appended ∧ stampedAt 0 1 ∉ s.returned := ⟨_, rfl, by decide, by decide⟩
  obtain ⟨s, taken, appended, unread⟩ := taken
  have reached : publishing.Reached CommitsInOrder (initial .empty) s :=
    System.reached_of_run taken ⟨trivial, trivial, trivial, ⟨by decide, by decide⟩, trivial,
      trivial, ⟨by decide, by decide⟩, trivial⟩
  have returned := appended_task_returned (by rintro _ ⟨⟩) reached appended
  exact ⟨s, reached, appended, unread, returned.2.2⟩

/-- The earlier timestamp commits after the later one was read and acknowledged: its task
lies behind the cursor, unread, and the next read does not return it. -/
theorem late_append_lost : ∃ s, publishing.run (initial .empty)
        [.stamp (stampedAt 0 1), .tick, .stamp (stampedAt 1 2), .commit (stampedAt 1 2), .read,
          .process, .advance (stampedAt 1 2), .commit (stampedAt 0 1), .read] = some s ∧
      stampedAt 0 1 ∈ s.appended ∧ stampedAt 0 1 ∉ s.returned ∧
      s.queue.Passed (stampedAt 0 1).position :=
  ⟨_, rfl, by decide, by decide, by decide⟩

end Publishing

end SkyTree.Delivery
