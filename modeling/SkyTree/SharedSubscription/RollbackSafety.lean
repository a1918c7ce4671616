import SkyTree.SharedSubscription.ConsumerCursor
import SkyTree.SharedSubscription.SingleHolder

/-!
# What the rollback of a client loses

`RollbackClientTasks` takes the share tasks queued for a client one by one, and at the end
deletes all of them from the client's queue if it rolled back at least one. A task that the
loop dropped on the way goes with them. Nothing is lost as long as a task is rolled back
only while every other one is still listed or in good hands.
-/

namespace SkyTree.SharedSubscription

open Foundation Delivery List System OrderedLog ShareGroupTask ShareQueue

def RollbackPhase.rolledBackAny : RollbackPhase → Bool
  | .idle => false
  | .reading _ => false
  | .next _ rolledBackAny => rolledBackAny
  | .waiting _ _ _ rolledBackAny => rolledBackAny
  | .marking _ _ _ rolledBackAny => rolledBackAny
  | .prepared _ _ rolledBackAny => rolledBackAny

def RollbackPhase.checking : RollbackPhase → Option (ShareGroupTask × ShareGroupTask)
  | .waiting task processingTask _ _ => some (task, processingTask)
  | .marking task processingTask _ _ => some (task, processingTask)
  | _ => none

namespace GroupState

variable {grp : String} {cid : ClientID} {s next : GroupState} {tid : UUID}

/-! ## Tasks in good hands -/

/-- The group's queue has the task as completed, processing or pending where the consumer will
still meet it. -/
def Safe (s : GroupState) (taskID : UUID) : Prop :=
  ∃ record ∈ s.queue.tasks, record.taskID = taskID ∧
    (record.status = .completed ∨ record.status = .processing ∨
      (record.status = .pending ∧ s.Waiting record.position))

theorem Safe.rewrite {o : UUID} {queue : ShareQueue} {rec : ShareGroupTask}
    (safe : s.Safe tid) (hr : Rewrites s.queue queue o rec)
    (hw : tid = o → rec.status = .completed ∨ rec.status = .processing ∨
      (rec.status = .pending ∧ s.Ahead rec.position)) :
    ({ s with queue := queue } : GroupState).Safe tid := by
  obtain ⟨old, hs, rfl, status⟩ := safe
  by_cases hit : old.taskID = o
  · refine ⟨rec, (hr.mem_iff _).mpr (.inl rfl), hr.identified.trans hit.symm, ?_⟩
    exact (hw hit).imp_right (Or.imp_right (And.imp_right fun ha =>
      ha.waiting.congr hr.cursor rfl))
  · refine ⟨old, (hr.mem_iff _).mpr (.inr ⟨hs, hit⟩), rfl, ?_⟩
    exact status.imp_right (Or.imp_right (And.imp_right fun waits =>
      waits.congr hr.cursor rfl))

/-! ## The condition on a step -/

def CarefulRollback (shareGroup : String) (clientID : ClientID) (s : GroupState) :
    RollbackAction → Prop
  /- after a task was rolled back, a lookup or a rollback fails only for a task in good hands -/
  | .lookUp true => ∀ task rest, s.rollbacks clientID = .next (task :: rest) true →
      s.Safe task.taskID
  | .rollBack true => ∀ task rest, s.rollbacks clientID = .prepared task rest true →
      s.Safe task.taskID
  /- no other task of the message is being processed -/
  | .lookUp false => ∀ task rest rolledBackAny,
      s.rollbacks clientID = .next (task :: rest) rolledBackAny →
        ∀ other ∈ s.queue.tasks, other.messageID = task.messageID →
          other.status = .processing → other.taskID = task.taskID
  /- the new key lies ahead, and what the client holds is listed or in good hands -/
  | .rollBack false => ∀ task rest rolledBackAny,
      s.rollbacks clientID = .prepared task rest rolledBackAny →
        s.Ahead (toLex (s.clock, task.taskID)) ∧
          ∀ taskID, s.Holds shareGroup clientID taskID →
            s.Safe taskID ∨ taskID ∈ (task :: rest).map ShareGroupTask.taskID
  | _ => True

/-- Claims fail at the end of a batch only, tasks become pending again at keys that lie ahead, the
client itself is away, and its rollback is the only one. -/
def Careful (shareGroup : String) (clientID : ClientID) (s : GroupState) : GroupLabel → Prop
  | .consumer (.claim true _) => s.consumer.batch.tail = []
  | .consumer (.revert false) =>
    ∀ task ∈ s.consumer.phase.task, s.Ahead (toLex (s.clock, task.taskID))
  | .rollback other action => other = clientID ∧ s.CarefulRollback shareGroup clientID action
  | .environment (.requeue taskID) => s.Ahead (toLex (s.clock, taskID))
  | .environment (.acknowledge other _) => other ≠ clientID
  | .environment (.expire other) => other ≠ clientID
  | _ => True

/-! ## Consumer and environment -/

theorem Safe.consumerMoves (safe : s.Safe tid) (regular : s.Regular grp)
    {act : ConsumerAction} (met : s.Careful grp cid (.consumer act))
    (moves : ConsumerMoves grp s act next) : next.Safe tid := by
  obtain ⟨rec, stored, rfl, status⟩ := safe
  have sound := regular.sound
  have shrunk := line_sublist moves
  -- the record stays, and stays ahead if it is pending
  have kept (still : rec ∈ next.queue.tasks)
      (apart : rec.status = .pending → ∀ failed per, act = .claim failed per →
        ∀ task rest, s.consumer.batch = task :: rest → task.position = rec.position →
          failed = true ∧ rest = []) : next.Safe rec.taskID := by
    refine ⟨rec, still, rfl, status.imp_right (Or.imp_right ?_)⟩
    rintro ⟨pending, waiting⟩
    exact ⟨pending, waiting.consumerMoves stored pending regular.ordered moves (apart pending)⟩
  cases moves with
  | @claimFailed task rest per idle batch =>
    refine kept stored ?_
    rintro - failed per ⟨⟩ head tail current -
    rw [Careful, current] at met
    exact ⟨rfl, met⟩
  | @claimed task found rest per idle batch located pending =>
    obtain ⟨held, same⟩ := findShareTask_eq_some located
    have rewrites : Rewrites s.queue (s.queue.setShareTaskStatus found .processing s.clock)
        found.taskID (found.withStatus .processing s.clock) :=
      .of_setStatus sound.distinct held .processing
    by_cases hit : rec.taskID = found.taskID
    · refine ⟨_, (rewrites.mem_iff _).mpr (.inl rfl), ?_, .inr (.inl ?_)⟩
      · rw [withStatus_taskID, hit]
      · exact withStatus_status _ _ _
    · refine kept ((rewrites.mem_iff _).mpr (.inr ⟨stored, hit⟩)) ?_
      rintro - failed per ⟨⟩ head tail current posEq
      obtain ⟨rfl, rfl⟩ := List.cons.inj (current.symm.trans batch)
      exact absurd ((taskID_eq_of_position_eq posEq).symm.trans same.symm) hit
  | @taken task rest per idle batch lost =>
    refine kept (by cases per <;> exact stored) ?_
    rintro pending failed per ⟨⟩ head tail current posEq
    obtain ⟨rfl, rfl⟩ := List.cons.inj (current.symm.trans batch)
    have found := sound.distinct.find stored
    rw [← taskID_eq_of_position_eq posEq] at found
    exact absurd pending (lost rec found)
  | @woken task rem selected per waking =>
    exact kept (by cases per <;> exact stored) nofun
  | @reverted task queue updated reverting changed =>
    rcases changed.cases_rewrites sound.distinct with rfl | ⟨old, held, same, -, rewrites⟩
    · exact kept stored nofun
    · by_cases hit : rec.taskID = task.taskID
      · have ahead := met task (by rw [reverting]; rfl)
        have sublist := shrunk nofun nofun
        refine ⟨_, (rewrites.mem_iff _).mpr (.inl rfl), rewrites.identified.trans hit.symm,
          .inr (.inr ⟨withStatus_status _ _ _, ?_⟩)⟩
        rw [withStatus_position_pending, same]
        refine ⟨?_, .inr fun pos member => ahead.2 pos (sublist.subset member)⟩
        rw [show ({ s with queue := queue, consumer := _ } : GroupState).queue.cursor =
          s.queue.cursor from rewrites.cursor]
        exact ahead.1
      · exact kept ((rewrites.mem_iff _).mpr (.inr ⟨stored, hit⟩)) nofun
  | _ => exact kept stored nofun

theorem Safe.environmentMoves (safe : s.Safe tid) (hs : s.Sound grp)
    {act : EnvironmentAction} (met : s.Careful grp cid (.environment act))
    (hm : EnvironmentMoves grp s act next) : next.Safe tid := by
  cases hm with
  | @commit task ht =>
    have new := (hs.appendingNew task ht).2
    obtain ⟨rec, stored, rfl, -⟩ := id safe
    exact safe.rewrite (.of_append new) fun he => absurd he (new rec stored)
  | requeue hc =>
    rcases hc.cases_rewrites hs.distinct with rfl | ⟨old, -, he, -, hr⟩
    · exact safe
    · refine safe.rewrite hr fun _ => .inr (.inr ⟨?_, ?_⟩)
      · exact withStatus_status _ _ _
      · rw [withStatus_position_pending, he]
        exact met
  | complete hc =>
    rcases hc.cases_rewrites hs.distinct with rfl | ⟨old, -, -, -, hr⟩
    · exact safe
    · exact safe.rewrite hr fun _ => .inl (withStatus_status _ _ _)
  | _ => exact safe

theorem mem_appendClientTask_of_mem {ds : DeliveryStore} {o : ClientID} {task dlv : DeliveryTask}
    (hf : ∀ stored ∈ (ds o).tasks, stored.taskID ≠ task.taskID)
    (hm : dlv ∈ (ds cid).tasks) :
    dlv ∈ (ds.appendClientTask o task cid).tasks := by
  rcases ds.appendClientTask_cases o cid task with he | ⟨rfl, ha, hg⟩
  · rwa [he]
  · rw [hg, ClientQueue.appendTask_tasks_of_absent ha, mem_insert]
    refine .inr ⟨hm, fun posEq => hf dlv hm ?_⟩
    exact congrArg (fun pos => (ofLex pos).2) posEq

theorem Holds.consumerMoves (hh : s.Holds grp cid tid) {act : ConsumerAction}
    (moves : ConsumerMoves grp s act next) : next.Holds grp cid tid := by
  obtain ⟨dlv, hm, own, he⟩ := hh
  cases moves with
  | assigned ha found hf =>
    exact ⟨dlv, mem_appendClientTask_of_mem hf hm, own, he⟩
  | _ => exact ⟨dlv, hm, own, he⟩

theorem Holds.environmentMoves (hh : s.Holds grp cid tid)
    {act : EnvironmentAction} (met : s.Careful grp cid (.environment act))
    (moves : EnvironmentMoves grp s act next) :
    next.Holds grp cid tid := by
  obtain ⟨dlv, hm, own, he⟩ := hh
  refine ⟨dlv, ?_, own, he⟩
  cases moves with
  | enqueue alien hf => exact mem_appendClientTask_of_mem hf hm
  | acknowledge =>
    dsimp only
    rwa [DeliveryStore.advanceClientCursor, Function.update_of_ne (Ne.symm met)]
  | expire =>
    dsimp only
    rwa [DeliveryStore.deleteClientState_of_ne _ (Ne.symm met)]
  | _ => exact hm

/-! ## The rollback -/

structure Guards (shareGroup : String) (clientID : ClientID) (followed : UUID → Prop)
    (s : GroupState) (phase : RollbackPhase) : Prop where
  kept : ∀ taskID, followed taskID → s.Holds shareGroup clientID taskID ∨ s.Safe taskID
  listed : ∀ task ∈ phase.listed, s.Holds shareGroup clientID task.taskID
  checked : ∀ task processingTask, phase.checking = some (task, processingTask) →
    processingTask.taskID = task.taskID ∧ s.Safe task.taskID
  covered : phase.rolledBackAny = true → ∀ taskID, followed taskID →
    s.Safe taskID ∨ taskID ∈ phase.listed.map ShareGroupTask.taskID

section Guards

variable {followed : UUID → Prop} {phase : RollbackPhase}

theorem Guards.mono (guards : Guards grp cid followed s phase)
    (holds : ∀ tid, s.Holds grp cid tid → next.Holds grp cid tid)
    (safe : ∀ tid, s.Safe tid → next.Safe tid) :
    Guards grp cid followed next phase where
  kept tid member := (guards.kept tid member).imp (holds tid) (safe tid)
  listed task member := holds task.taskID (guards.listed task member)
  checked task share found := (guards.checked task share found).imp_right (safe task.taskID)
  covered any tid member := (guards.covered any tid member).imp_left (safe tid)

theorem Guards.before (guards : Guards grp cid followed s phase)
    {o : RollbackPhase} (noneYet : o.rolledBackAny = false) (unchecked : o.checking = none)
    (listed : ∀ task ∈ o.listed, s.Holds grp cid task.taskID) :
    Guards grp cid followed s o where
  kept := guards.kept
  listed := listed
  checked _ _ found := by simp [unchecked] at found
  covered any := by simp [noneYet] at any

theorem Guards.proceed (hg : Guards grp cid followed s phase)
    {o : RollbackPhase} (hl : o.listed = phase.listed)
    (any : o.rolledBackAny = phase.rolledBackAny)
    (hc : ∀ task processingTask, o.checking = some (task, processingTask) →
      processingTask.taskID = task.taskID ∧ s.Safe task.taskID) :
    Guards grp cid followed s o where
  kept := hg.kept
  listed := hl ▸ hg.listed
  checked := hc
  covered := any ▸ hl ▸ hg.covered

variable {task : ShareGroupTask} {rest : List ShareGroupTask}

theorem Guards.skip (guards : Guards grp cid followed s phase)
    (listed : phase.listed = task :: rest)
    (safe : phase.rolledBackAny = true → s.Safe task.taskID) :
    Guards grp cid followed s (.next rest phase.rolledBackAny) where
  kept := guards.kept
  listed o member := guards.listed o (listed ▸ mem_cons_of_mem _ member)
  checked _ _ found := nomatch found
  covered any tid member := by
    rcases guards.covered any tid member with inGoodHands | inside
    · exact .inl inGoodHands
    · rw [listed, map_cons] at inside
      rcases mem_cons.mp inside with rfl | later
      · exact .inl (safe any)
      · exact .inr later

theorem Guards.marked (guards : Guards grp cid followed s phase)
    {rec : ShareGroupTask} {queue : ShareQueue} (listed : phase.listed = task :: rest)
    (rewrites : Rewrites s.queue queue task.taskID rec) :
    Guards grp cid followed { s with queue := queue }
      (.prepared task rest phase.rolledBackAny) where
  kept tid member := by
    by_cases own : tid = task.taskID
    · subst own
      exact .inl (guards.listed task (listed ▸ mem_cons_self))
    · exact (guards.kept tid member).imp_right fun safe =>
        safe.rewrite rewrites fun same => absurd same own
  listed o member := guards.listed o (listed ▸ member)
  checked _ _ found := nomatch found
  covered any tid member := by
    by_cases own : tid = task.taskID
    · subst own
      exact .inr mem_cons_self
    · rw [RollbackPhase.listed, ← listed]
      exact (guards.covered any tid member).imp_left fun safe =>
        safe.rewrite rewrites fun same => absurd same own

theorem Guards.rolledBack (hg : Guards grp cid followed s phase)
    {queue : ShareQueue} (hl : phase.listed = task :: rest) (hd : s.queue.Distinct)
    (hc : RolledBack s.queue task s.clock queue)
    (ha : s.Ahead (toLex (s.clock, task.taskID)))
    (ho : ∀ tid, s.Holds grp cid tid → s.Safe tid ∨
      tid ∈ (task :: rest).map ShareGroupTask.taskID) :
    Guards grp cid followed { s with queue := queue } (.next rest true) := by
  have hw : ({ s with queue := queue } : GroupState).Safe task.taskID ∧
      ∀ tid, s.Safe tid → ({ s with queue := queue } : GroupState).Safe tid := by
    rcases hc.cases_rewrites hd with
      ⟨rfl, old, hs, he, ended⟩ | ⟨rec, hp, posEq, hr, -⟩
    · exact ⟨⟨old, hs, he, .inl ended⟩, fun _ safe => safe⟩
    · rw [← posEq] at ha
      refine ⟨⟨rec, (hr.mem_iff _).mpr (.inl rfl), hr.identified, ?_⟩, ?_⟩
      · exact .inr (.inr ⟨hp, ha.waiting.congr hr.cursor rfl⟩)
      · exact fun _ safe => safe.rewrite hr fun _ => .inr (.inr ⟨hp, ha⟩)
  obtain ⟨own, safe⟩ := hw
  refine ⟨fun tid hm => (hg.kept tid hm).imp_right (safe tid), ?_, ?_, ?_⟩
  · exact fun o hm => hg.listed o (hl ▸ mem_cons_of_mem _ hm)
  · exact fun _ _ hf => nomatch hf
  · intro _ tid hm
    have hb : s.Safe tid ∨ tid ∈ (task :: rest).map ShareGroupTask.taskID :=
      (hg.kept tid hm).elim (ho tid) .inl
    rcases hb with hh | hi
    · exact .inl (safe tid hh)
    · rcases mem_cons.mp hi with rfl | later
      · exact .inl own
      · exact .inr later

theorem Guards.rollbackMoves (hg : Guards grp cid followed s (s.rollbacks cid))
    (sound : s.Sound grp) {act : RollbackAction}
    (met : s.CarefulRollback grp cid act)
    (moves : RollbackMoves grp s cid act next) :
    Guards grp cid followed next (next.rollbacks cid) := by
  -- steps that change the phase only
  have moved {phase : RollbackPhase} (after : Guards grp cid followed s phase) :
      Guards grp cid followed (s.setRollback cid phase)
        ((s.setRollback cid phase).rollbacks cid) := by
    rw [setRollback_self]
    exact after.mono (fun _ hh => hh) fun _ safe => safe
  cases moves with
  | readCursor idle chosen =>
    apply moved
    rcases chosen with rfl | rfl <;> exact hg.before rfl rfl nofun
  | readFailed reading | cancel => exact moved (hg.before rfl rfl nofun)
  | readTasks reading =>
    refine moved (hg.before rfl rfl fun task hm => ?_)
    obtain ⟨dlv, hs, own, he, -⟩ := mem_readUnacked hm
    exact ⟨dlv, hs, own, he⟩
  | @lookUpFailed task rest back hl =>
    rw [hl] at hg
    refine moved (hg.skip rfl ?_)
    rintro rfl
    exact met task rest hl
  | @processing task share rest back hl hs he status =>
    have known := met task rest back hl share hs he status
    rw [hl] at hg
    refine moved (hg.proceed rfl rfl ?_)
    rintro _ _ ⟨⟩
    exact ⟨known, share, hs, known, .inr (.inl status)⟩
  | notProcessing hl =>
    rw [hl] at hg
    exact moved (hg.proceed rfl rfl fun _ _ hf => nomatch hf)
  | @recheck failed task share rest back phase hw chosen =>
    rw [hw] at hg
    have checked := hg.checked task share rfl
    apply moved
    rcases chosen with rfl | rfl
    · exact hg.skip rfl fun _ => checked.2
    · refine hg.proceed rfl rfl ?_
      rintro _ _ ⟨⟩
      exact checked
  | @markFailed failed task share rest back marks =>
    rw [marks] at hg
    exact moved (hg.skip rfl fun _ => (hg.checked task share rfl).2)
  | @marked task share rec rest back marks hf status =>
    rw [marks] at hg
    obtain ⟨hs, known⟩ := findShareTask_eq_some hf
    have hr : Rewrites s.queue (s.queue.setShareTaskStatus rec .rolledBack s.clock)
        rec.taskID (rec.withStatus .rolledBack s.clock) :=
      .of_setStatus sound.distinct hs .rolledBack
    rw [known, (hg.checked task share rfl).1] at hr
    rw [setRollback_self]
    exact (hg.marked rfl hr).mono (fun _ hh => hh) fun _ safe => safe
  | @rollBackFailed task rest back hp =>
    rw [hp] at hg
    refine moved (hg.skip rfl ?_)
    rintro rfl
    exact met task rest hp
  | @rolledBack task rest back queue hp hc =>
    obtain ⟨ha, ho⟩ := met task rest back hp
    rw [hp] at hg
    rw [setRollback_self]
    exact (hg.rolledBack rfl sound.distinct hc ha ho).mono (fun _ hh => hh) fun _ safe => safe
  | @finished failed back ds hl hd =>
    rw [hl] at hg
    rw [setRollback_self]
    refine ⟨fun tid hm => ?_, fun _ hm => (nomatch hm),
      fun _ _ hf => (nomatch hf), nofun⟩
    rcases hd with rfl | ⟨rfl, rfl⟩
    · exact hg.kept tid hm
    · -- whatever was dropped from the list is in good hands
      rcases hg.covered rfl tid hm with safe | hi
      · exact .inr safe
      · cases hi

theorem Guards.step (hg : Guards grp cid followed s (s.rollbacks cid))
    (hr : s.Regular grp) {label : GroupLabel}
    (met : s.Careful grp cid label)
    (ht : (shareGroupSystem grp).step s label = some next) :
    Guards grp cid followed next (next.rollbacks cid) := by
  cases label with
  | consumer act =>
    have hm := ConsumerMoves.of_step ht
    have he : next.rollbacks = s.rollbacks := by cases hm <;> rfl
    rw [he]
    exact hg.mono (fun _ hh => hh.consumerMoves hm) fun _ hs => hs.consumerMoves hr met hm
  | rollback o act =>
    obtain ⟨rfl, hc⟩ := met
    exact hg.rollbackMoves hr.sound hc (.of_step ht)
  | environment act =>
    have hm := EnvironmentMoves.of_step ht
    have he : next.rollbacks = s.rollbacks := by cases hm <;> rfl
    rw [he]
    exact hg.mono (fun _ hh => hh.environmentMoves met hm)
      fun _ hs => hs.environmentMoves hr.sound met hm

theorem Guards.mem_iff (hg : Guards grp cid followed s (s.rollbacks cid))
    (sound : s.Sound grp) {act : RollbackAction}
    (hm : RollbackMoves grp s cid act next) {task : ShareGroupTask}
    (free : ¬s.Holds grp cid task.taskID) :
    task ∈ next.queue.tasks ↔ task ∈ s.queue.tasks := by
  -- the task at hand is queued, so it is not this one
  have ho {cur rec : ShareGroupTask} {queue : ShareQueue} (hl : cur ∈ (s.rollbacks cid).listed)
      (hr : Rewrites s.queue queue cur.taskID rec) :
      task ∈ queue.tasks ↔ task ∈ s.queue.tasks := by
    have ha : task.taskID ≠ cur.taskID := fun he =>
      free (he ▸ hg.listed cur hl)
    rw [hr.mem_iff]
    refine ⟨?_, fun hs => .inr ⟨hs, ha⟩⟩
    rintro (rfl | ⟨hs, -⟩)
    · exact absurd hr.identified ha
    · exact hs
  cases hm with
  | @marked cur share rec rest back marks hf status =>
    obtain ⟨hs, hi⟩ := findShareTask_eq_some hf
    have hr : Rewrites s.queue (s.queue.setShareTaskStatus rec .rolledBack s.clock)
        rec.taskID (rec.withStatus .rolledBack s.clock) :=
      .of_setStatus sound.distinct hs .rolledBack
    have checked := hg.checked cur share (by rw [marks]; rfl)
    rw [hi, checked.1] at hr
    exact ho (by rw [marks]; exact mem_cons_self) hr
  | @rolledBack cur rest back queue hp hc =>
    rcases hc.cases_rewrites sound.distinct with ⟨rfl, -⟩ | ⟨rec, -, -, hr, -⟩
    · exact Iff.rfl
    · exact ho (by rw [hp]; exact mem_cons_self) hr
  | _ => exact Iff.rfl

end Guards

/-- The client's queue has the task, or the group's queue has it as completed, processing or
pending after the cursor. -/
def Kept (shareGroup : String) (clientID : ClientID) (s : GroupState) (taskID : UUID) : Prop :=
  s.Holds shareGroup clientID taskID ∨
    ∃ record ∈ s.queue.tasks, record.taskID = taskID ∧
      (record.status = .completed ∨ record.status = .processing ∨
        (record.status = .pending ∧ ∀ cursor ∈ s.queue.cursor, cursor < record.position))

theorem Safe.kept (safe : s.Safe tid) : s.Kept grp cid tid := by
  obtain ⟨rec, hs, he, status⟩ := safe
  exact .inr ⟨rec, hs, he, status.imp_right (Or.imp_right (And.imp_right And.left))⟩

end GroupState

/-- A careful rollback keeps every task that was queued for the client, and its steps change no
task that is not queued for the client. -/
theorem rollback_keeps_tasks {shareGroup : String} {clientID : ClientID} {start s : GroupState}
    (reachable : (shareGroupSystem shareGroup).Reached (fun _ _ => True) {} start)
    (idle : start.rollbacks clientID = .idle)
    (reached : (shareGroupSystem shareGroup).Reached (GroupState.Careful shareGroup clientID)
      start s) :
    (∀ taskID, start.Holds shareGroup clientID taskID → s.Kept shareGroup clientID taskID) ∧
      ∀ action next, (shareGroupSystem shareGroup).step s (.rollback clientID action) = some next →
          ∀ task : ShareGroupTask, ¬s.Holds shareGroup clientID task.taskID →
            (task ∈ next.queue.tasks ↔ task ∈ s.queue.tasks) := by
  have regularStart : start.Regular shareGroup :=
    reachable.invariant GroupState.regular_initial fun _ _ _ hr _ ht => hr.step ht
  have hi : s.Regular shareGroup ∧ GroupState.Guards shareGroup clientID
      (start.Holds shareGroup clientID) s (s.rollbacks clientID) := by
    induction reached with
    | refl =>
      rw [idle]
      exact ⟨regularStart, fun _ hh => .inl hh, fun _ hm => (nomatch hm),
        fun _ _ hf => (nomatch hf), nofun⟩
    | step _ met ht ih =>
      obtain ⟨hr, hg⟩ := ih
      exact ⟨hr.step ht, hg.step hr met ht⟩
  obtain ⟨hr, hg⟩ := hi
  refine ⟨fun taskID hh => ?_, fun action next ht task free => ?_⟩
  · exact (hg.kept taskID hh).elim .inl GroupState.Safe.kept
  · exact hg.mem_iff hr.sound (.of_step ht) free

/-- One task is published, assigned to alice and rolled back at a later time. -/
theorem rollback_keeps_tasks_of_alice :
    ∃ start s, (shareGroupSystem "g").Reached (fun _ _ => True) {} start ∧
      start.Holds "g" "alice" 1 ∧
      (shareGroupSystem "g").Reached (GroupState.Careful "g" "alice") start s ∧
      s.rollbacks "alice" = .idle ∧ ¬s.Holds "g" "alice" 1 ∧ s.Kept "g" "alice" 1 := by
  let before : List GroupLabel := [.begins "g" 11 1, .commits "g" 0 11 1, .consumer .read] ++
    GroupLabel.assignsTo "g" ["alice"] 21 ++ [.consumer (.wake true true), .environment .tick]
  let rollback : List GroupLabel :=
    [.readCursor false, .readTasks false, .lookUp false, .recheck false, .mark false,
      .rollBack false, .finish false].map (GroupLabel.rollback "alice")
  have he : ∃ start, (shareGroupSystem "g").run {} before = some start ∧
      start.rollbacks "alice" = .idle ∧ start.Holds "g" "alice" 1 ∧
      (shareGroupSystem "g").Meets (GroupState.Careful "g" "alice") start rollback ∧
      ∃ s, (shareGroupSystem "g").run start rollback = some s ∧
        s.rollbacks "alice" = .idle ∧ (s.deliveries "alice").tasks.entries = [] := by
    refine ⟨_, rfl, rfl, ⟨_, mem_cons_self, rfl, rfl⟩, ?_, _, rfl, rfl, by decide⟩
    refine ⟨⟨rfl, trivial⟩, ⟨rfl, trivial⟩, ⟨rfl, ?_⟩, ⟨rfl, trivial⟩, ⟨rfl, trivial⟩, ⟨rfl, ?_⟩,
      ⟨rfl, trivial⟩, trivial⟩
    · rintro _ _ _ ⟨⟩
      decide
    · rintro _ _ _ ⟨⟩
      refine ⟨by decide, ?_⟩
      rintro taskID ⟨delivery, hm, -, rfl⟩
      refine .inr ?_
      revert delivery
      decide
  obtain ⟨start, hp, hi, hh, met, s, he, hd, bare⟩ := he
  have reach : (shareGroupSystem "g").Reached (fun _ _ => True) {} start :=
    reached_of_run hp (.of_forall fun _ _ _ => trivial)
  have hr := reached_of_run he met
  have hg : ¬s.Holds "g" "alice" 1 := by
    rintro ⟨delivery, hm, -⟩
    rw [mem_def, bare] at hm
    cases hm
  exact ⟨start, s, reach, hh, hr, hd, hg, (rollback_keeps_tasks reach hi hr).1 1 hh⟩

/-- Two tasks are assigned to alice. The store fails to roll the first back after it was marked,
the second is rolled back, and both delivery tasks are deleted. -/
theorem rollback_loses_task : ∃ start s, (shareGroupSystem "g").Reached (fun _ _ => True) {} start ∧
      start.Holds "g" "alice" 1 ∧
      (shareGroupSystem "g").Reached (fun _ label => ∃ action, label = .rollback "alice" action)
        start s ∧
      s.rollbacks "alice" = .idle ∧ ¬s.Kept "g" "alice" 1 := by
  let before : List GroupLabel :=
    [.begins "g" 11 1, .commits "g" 0 11 1, .begins "g" 12 2, .commits "g" 0 12 2,
      .consumer .read] ++
    GroupLabel.assignsTo "g" ["alice"] 21 ++ [.consumer (.wake true true)] ++
    GroupLabel.assignsTo "g" ["alice"] 22 ++ [.consumer (.wake true true)]
  let rollback : List GroupLabel :=
    [.readCursor false, .readTasks false, .lookUp false, .recheck false, .mark false,
      .rollBack true, .lookUp false, .recheck false, .mark false, .rollBack false,
      .finish false].map (GroupLabel.rollback "alice")
  have ran : ∃ start, (shareGroupSystem "g").run {} before = some start ∧
      start.Holds "g" "alice" 1 ∧
      ∃ s, (shareGroupSystem "g").run start rollback = some s ∧ s.rollbacks "alice" = .idle ∧
        (s.deliveries "alice").tasks.entries = [] ∧
        ∀ record ∈ s.queue.tasks.entries, record.taskID = 1 → record.status = .rolledBack := by
    exact ⟨_, rfl, ⟨_, mem_cons_self, rfl, rfl⟩, _, rfl, rfl, by decide, by decide⟩
  obtain ⟨start, hp, hh, s, ran, hd, bare, marked⟩ := ran
  have hr : (shareGroupSystem "g").Reached (fun _ _ => True) {} start :=
    reached_of_run hp (.of_forall fun _ _ _ => trivial)
  refine ⟨start, s, hr, hh, reached_of_run ran (.of_forall ?_), hd, ?_⟩
  · intro _ label hm
    obtain ⟨action, -, rfl⟩ := mem_map.mp hm
    exact ⟨action, rfl⟩
  · rintro (⟨delivery, hm, -⟩ | ⟨record, hs, he, status⟩)
    · rw [mem_def, bare] at hm
      cases hm
    · simp [marked record hs he] at status

end SkyTree.SharedSubscription
