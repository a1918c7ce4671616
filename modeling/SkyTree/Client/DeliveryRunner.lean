import SkyTree.Client.MessageExpiry
import SkyTree.Client.Outbound

/-!
# The delivery runner and tasks that can never be sent

The runner reads the tasks after its position and tries one after the other. A task
whose payload is missing or empty is dropped by moving the position; a payload that
does not decode is reported as an error like a failed read, and an error ends the pass
with the position where it was. The next pass then starts with the same task.
-/

namespace SkyTree.Client

open Delivery Foundation Mqtt List

structure SentMessage extends StoredMessage where
  sendClientID : ClientID

inductive LoadError where
  | notFound
  | storeError
  deriving DecidableEq, Repr

inductive WriteOutcome where
  | written
  | oversized
  | failed
  deriving DecidableEq, Repr

/-- What the stores, the clock and the connection answer while one task is attempted. -/
structure AttemptAnswers where
  contextDone : Bool := false
  windowOpen : Bool := true
  loadFails : Bool := false
  advanceFails : Bool := false
  now : Int := 0
  packetID : PacketID := 1
  packetIDReused : Bool := false
  write : WriteOutcome := .written
  windowOpenAfter : Bool := true

structure PassAnswers where
  readFails : Bool := false
  attempt : DeliveryTask → AttemptAnswers := fun _ => {}

structure PayloadStore where
  clientID : ClientID
  payloads : UUID → Option (List UInt8)
  decode : List UInt8 → Option SentMessage
  validUTF8 : List UInt8 → Bool

structure DeliveryRunner where
  queue : ClientQueue
  last : Position
  attempted : List DeliveryTask := []

def PayloadStore.loadMessagePayload (store : PayloadStore) (messageID : UUID) (fails : Bool) :
    Except LoadError (List UInt8) :=
  if fails then .error .storeError
  else if messageID = UUID.nil then .error .storeError
  else
    match store.payloads messageID with
    | none => .error .notFound
    | some raw => .ok raw

namespace DeliveryRunner

/-- Move past a task; the second component is whether an error is returned. -/
def advanceClientDeliveryCursor (runner : DeliveryRunner) (task : DeliveryTask) (fails : Bool) :
    DeliveryRunner × Bool :=
  ({ runner with
      last := task.position
      queue := if fails then runner.queue else (runner.queue.advanceCursor task.position).1 },
    fails)

def loadClientDeliveryMessage (store : PayloadStore) (runner : DeliveryRunner)
    (task : DeliveryTask) (answers : AttemptAnswers) : Except (DeliveryRunner × Bool) SentMessage :=
  match store.loadMessagePayload task.messageID answers.loadFails with
  | .error .notFound => .error (runner.advanceClientDeliveryCursor task answers.advanceFails)
  | .error .storeError => .error (runner, true)
  | .ok [] => .error (runner.advanceClientDeliveryCursor task answers.advanceFails)
  | .ok raw =>
    match store.decode raw with
    | none => .error (runner, true)
    | some message => .ok message

/-- The send itself. Without a usable packet identifier the connection is closed. -/
def sendDelivery (runner : DeliveryRunner) (task : DeliveryTask) (answers : AttemptAnswers) :
    DeliveryRunner × Bool :=
  if deliveryQoS task.deliveryQoS ≠ 0 ∧ (answers.packetID = 0 ∨ answers.packetIDReused) then
    (runner, true)
  else
    match answers.write with
    | .failed => (runner, true)
    | .oversized => runner.advanceClientDeliveryCursor task answers.advanceFails
    | .written =>
      if deliveryQoS task.deliveryQoS = 0 then
        runner.advanceClientDeliveryCursor task answers.advanceFails
      -- the persisted cursor waits for the acknowledgement
      else ({ runner with last := task.position }, false)

def deliverSingleClientDeliveryTask (store : PayloadStore) (runner : DeliveryRunner)
    (task : DeliveryTask) (answers : AttemptAnswers) : DeliveryRunner × Bool :=
  let runner := { runner with attempted := runner.attempted ++ [task] }
  match runner.loadClientDeliveryMessage store task answers with
  | .error result => result
  | .ok message =>
    let options : SendOptions :=
      ⟨task.retainAsPublished, deliveryQoS task.deliveryQoS, answers.packetID⟩
    if task.noLocal ∧ message.sendClientID ≠ "" ∧ message.sendClientID = store.clientID then
      runner.advanceClientDeliveryCursor task answers.advanceFails
    else
      match applyDeliveryPublishOptions store.validUTF8 message.toStoredMessage options
          answers.now with
      | none => runner.advanceClientDeliveryCursor task answers.advanceFails
      | some _ => runner.sendDelivery task answers

def deliverClientDeliveryTasks (store : PayloadStore) (answers : DeliveryTask → AttemptAnswers) :
    DeliveryRunner → List DeliveryTask → DeliveryRunner
  | runner, [] => runner
  | runner, task :: rest =>
    if (answers task).contextDone then runner
    else if !(answers task).windowOpen then runner
    else
      match runner.deliverSingleClientDeliveryTask store task (answers task) with
      | (next, true) => next
      | (next, false) =>
        if (answers task).windowOpenAfter then
          deliverClientDeliveryTasks store answers next rest
        else next

def pass (store : PayloadStore) (runner : DeliveryRunner) (answers : PassAnswers) :
    DeliveryRunner :=
  if answers.readFails then runner
  else runner.deliverClientDeliveryTasks store answers.attempt
    (runner.queue.readTasks runner.last 200)

def afterPasses (store : PayloadStore) (runner : DeliveryRunner) (passes : Nat → PassAnswers) :
    Nat → DeliveryRunner
  | 0 => runner
  | n + 1 => (afterPasses store runner passes n).pass store (passes n)

def pending (runner : DeliveryRunner) : List DeliveryTask := runner.queue.tasks.after runner.last

end DeliveryRunner

/-- No attempt of the task can get past loading it: its payload is there and does not
decode to a PUBLISH, or the task names no message. -/
def PayloadStore.Blocking (store : PayloadStore) (task : DeliveryTask) : Prop :=
  task.messageID = UUID.nil ∨
    ∃ raw, store.payloads task.messageID = some raw ∧ raw ≠ [] ∧ store.decode raw = none

/-- The attempt is made and none of its calls fails for a reason that can pass. -/
structure AttemptAnswers.Clear (answers : AttemptAnswers) : Prop where
  running : answers.contextDone = false
  window : answers.windowOpen = true
  loads : answers.loadFails = false
  identifier : answers.packetID ≠ 0
  unused : answers.packetIDReused = false
  writes : answers.write ≠ .failed

/-- The pass reads the queue, and the first task it finds is attempted undisturbed. -/
structure PassAnswers.Clear (answers : PassAnswers) (runner : DeliveryRunner) : Prop where
  reads : answers.readFails = false
  first : ∀ task ∈ runner.pending.head?, (answers.attempt task).Clear

/-- Again and again a pass is undisturbed. -/
def Fair (store : PayloadStore) (runner : DeliveryRunner) (passes : Nat → PassAnswers) : Prop :=
  ∀ n, ∃ m ≥ n, (passes m).Clear (runner.afterPasses store passes m)

namespace DeliveryRunner

variable {store : PayloadStore} {rnr : DeliveryRunner} {task : DeliveryTask}
  {rest : List DeliveryTask} {ans : AttemptAnswers}

structure Advances (store : PayloadStore) (before later : DeliveryRunner)
    (passed : List DeliveryTask) : Prop where
  split : before.pending = passed ++ later.pending
  covered : ∀ task ∈ passed, task ∈ later.attempted
  kept : ∀ task ∈ before.attempted, task ∈ later.attempted
  bounded : ∀ task ∈ later.attempted,
    task ∈ before.attempted ∨ task ∈ passed ∨ later.pending.head? = some task
  readable : ∀ task ∈ passed, ¬ store.Blocking task

theorem Advances.refl (store : PayloadStore) (rnr : DeliveryRunner) : Advances store rnr rnr [] :=
  ⟨rfl, nofun, fun _ hl => hl, fun _ hl => .inl hl, nofun⟩

theorem Advances.trans {a b c : DeliveryRunner} {first second : List DeliveryTask}
    (left : Advances store a b first) (right : Advances store b c second) :
    Advances store a c (first ++ second) := by
  refine ⟨?_, ?_, fun task hl => right.kept task (left.kept task hl), ?_, ?_⟩
  · rw [left.split, right.split, append_assoc]
  · intro task hl
    rcases mem_append.mp hl with inFst | inSnd
    · exact right.kept task (left.covered task inFst)
    · exact right.covered task inSnd
  · intro task hl
    rcases right.bounded task hl with he | inSnd | hh
    · rcases left.bounded task he with hs | inFst | hh
      · exact .inl hs
      · exact .inr (.inl (mem_append_left _ inFst))
      -- the task `b` stopped at is the first of `second`, or still the first of `c`
      · rw [right.split] at hh
        cases second with
        | nil => exact .inr (.inr hh)
        | cons next _ =>
          cases hh
          exact .inr (.inl (mem_append_right _ mem_cons_self))
    · exact .inr (.inl (mem_append_right _ inSnd))
    · exact .inr (.inr hh)
  · intro task hl
    rcases mem_append.mp hl with inFst | inSnd
    · exact left.readable task inFst
    · exact right.readable task inSnd

theorem pending_moved (first : rnr.pending = task :: rest) :
    rnr.queue.tasks.after task.position = rest :=
  rnr.queue.tasks.after_key first

theorem pending_advanceClientDeliveryCursor (fails : Bool) (first : rnr.pending = task :: rest) :
    (rnr.advanceClientDeliveryCursor task fails).1.pending = rest := by
  have hm := pending_moved first
  cases fails with
  | true => exact hm
  | false => exact (rnr.queue.after_advanceCursor _).trans hm

/-- An attempt moves past the task, or it returns an error and leaves the task first. -/
inductive Attempted (store : PayloadStore) (runner : DeliveryRunner) (task : DeliveryTask)
    (rest : List DeliveryTask) (answers : AttemptAnswers) : DeliveryRunner × Bool → Prop where
  | moved {next : DeliveryRunner} {failed : Bool} : next.pending = rest →
      next.attempted = runner.attempted → ¬ store.Blocking task →
      Attempted store runner task rest answers (next, failed)
  | stopped {next : DeliveryRunner} : next.pending = task :: rest →
      next.attempted = runner.attempted → (answers.Clear → store.Blocking task) →
      Attempted store runner task rest answers (next, true)

theorem Attempted.advance (first : rnr.pending = task :: rest) (hr : ¬ store.Blocking task) :
    Attempted store rnr task rest ans (rnr.advanceClientDeliveryCursor task ans.advanceFails) :=
  .moved (pending_advanceClientDeliveryCursor _ first) rfl hr

theorem attempted_sendDelivery (first : rnr.pending = task :: rest) (hr : ¬ store.Blocking task) :
    Attempted store rnr task rest ans (rnr.sendDelivery task ans) := by
  have hm := pending_moved first
  unfold sendDelivery
  split
  next unusable =>
    refine .stopped first rfl fun hc => ?_
    rcases unusable.2 with he | reused
    · exact absurd he hc.identifier
    · exact absurd (hc.unused.symm.trans reused) (by decide)
  next =>
    split
    next failed => exact .stopped first rfl fun hc => absurd failed hc.writes
    next => exact .advance first hr
    next =>
      split
      · exact .advance first hr
      · exact .moved hm rfl hr

theorem not_blocking_of_raw {raw : List UInt8} (hn : task.messageID ≠ UUID.nil)
    (hf : store.payloads task.messageID = some raw)
    (fine : raw = [] ∨ store.decode raw ≠ none) : ¬ store.Blocking task := by
  rintro (hu | ⟨o, hs, filled, bad⟩)
  · exact hn hu
  · obtain rfl := Option.some.inj (hf.symm.trans hs)
    exact fine.elim filled fun hd => hd bad

theorem attempted_deliverSingleClientDeliveryTask (store : PayloadStore) (ans : AttemptAnswers)
    (first : rnr.pending = task :: rest) :
    Attempted store { rnr with attempted := rnr.attempted ++ [task] } task rest ans
      (rnr.deliverSingleClientDeliveryTask store task ans) := by
  unfold deliverSingleClientDeliveryTask loadClientDeliveryMessage PayloadStore.loadMessagePayload
  by_cases fails : ans.loadFails = true
  · simp only [fails, if_true]
    exact .stopped first rfl fun hc => absurd (hc.loads.symm.trans fails) (by decide)
  · rw [if_neg fails]
    by_cases hu : task.messageID = UUID.nil
    · simp only [hu, if_true]
      exact .stopped first rfl fun _ => .inl hu
    · rw [if_neg hu]
      cases hf : store.payloads task.messageID with
      | none =>
        refine .advance first ?_
        rintro (unnamed | ⟨raw, read, -, -⟩)
        · exact hu unnamed
        · cases hf.symm.trans read
      | some raw =>
        cases raw with
        | nil => exact .advance first (not_blocking_of_raw hu hf (.inl rfl))
        | cons byte bytes =>
          cases hd : store.decode (byte :: bytes) with
          | none =>
            simp only [hd]
            exact .stopped first rfl fun _ => .inr ⟨_, hf, by simp, hd⟩
          | some msg =>
            have hr : ¬ store.Blocking task := not_blocking_of_raw hu hf (.inr (by simp [hd]))
            simp only [hd]
            split
            · exact .advance first hr
            · split
              · exact .advance first hr
              · exact attempted_sendDelivery first hr

theorem Attempted.advances {res : DeliveryRunner × Bool} (first : rnr.pending = task :: rest)
    (ha : Attempted store { rnr with attempted := rnr.attempted ++ [task] } task rest ans res) :
    (Advances store rnr res.1 [task] ∧ ¬ store.Blocking task) ∨
      (Advances store rnr res.1 [] ∧ res.2 = true ∧ (ans.Clear → store.Blocking task)) := by
  cases ha with
  | moved hs logged hr =>
    refine .inl ⟨⟨?_, ?_, ?_, ?_, ?_⟩, hr⟩
    · rw [first, hs, singleton_append]
    · intro o hl
      rw [logged]
      exact mem_append_right _ hl
    · intro o hl
      rw [logged]
      exact mem_append_left _ hl
    · intro o hl
      rw [logged] at hl
      rcases mem_append.mp hl with prior | now
      · exact .inl prior
      · exact .inr (.inl now)
    · intro o hl
      rw [mem_singleton.mp hl]
      exact hr
  | stopped he logged hb =>
    refine .inr ⟨⟨?_, nofun, ?_, ?_, nofun⟩, rfl, hb⟩
    · rw [first, he, nil_append]
    · intro o hl
      rw [logged]
      exact mem_append_left _ hl
    · intro o hl
      rw [logged] at hl
      rcases mem_append.mp hl with prior | now
      · exact .inl prior
      · rw [mem_singleton.mp now, he]
        exact .inr (.inr rfl)

theorem Attempted.logged {res : DeliveryRunner × Bool}
    (ha : Attempted store { rnr with attempted := rnr.attempted ++ [task] } task rest
      ans res) : task ∈ res.1.attempted := by
  cases ha with
  | moved _ hl _ | stopped _ hl _ =>
    rw [hl]
    exact mem_append_right _ mem_cons_self

theorem deliverClientDeliveryTasks_advances (store : PayloadStore)
    (ans : DeliveryTask → AttemptAnswers) {batch more : List DeliveryTask}
    (ha : rnr.pending = batch ++ more) :
    ∃ passed, Advances store rnr (rnr.deliverClientDeliveryTasks store ans batch)
      passed := by
  induction batch generalizing rnr with
  | nil => exact ⟨[], .refl store rnr⟩
  | cons task rest ih =>
    have tried := attempted_deliverSingleClientDeliveryTask store (ans task) ha
    unfold deliverClientDeliveryTasks
    split
    · exact ⟨[], .refl store rnr⟩
    · split
      · exact ⟨[], .refl store rnr⟩
      · rcases tried.advances ha with ⟨hm, -⟩ | ⟨hs, hf, -⟩
        · split
          next next same => exact ⟨[task], by simpa [same] using hm⟩
          next next same =>
            rw [same] at hm
            split
            · have suffix : next.pending = rest ++ more := by
                have split := hm.split
                rw [ha] at split
                exact (List.cons.inj split).2.symm
              obtain ⟨passed, hl⟩ := ih suffix
              exact ⟨[task] ++ passed, hm.trans hl⟩
            · exact ⟨[task], hm⟩
        · split
          next next same => exact ⟨[], by simpa [same] using hs⟩
          next next same =>
            rw [same] at hf
            nomatch hf

/-- A batch whose first attempt is undisturbed attempts its first task, and moves past it
unless it is blocking. -/
theorem deliverClientDeliveryTasks_first (store : PayloadStore)
    (ans : DeliveryTask → AttemptAnswers) {more : List DeliveryTask}
    (ha : rnr.pending = (task :: rest) ++ more)
    (hc : (ans task).Clear) :
    ∃ passed, Advances store rnr (rnr.deliverClientDeliveryTasks store ans (task :: rest)) passed ∧
      task ∈ (rnr.deliverClientDeliveryTasks store ans (task :: rest)).attempted ∧
      (store.Blocking task ∨ passed ≠ []) := by
  have tried := attempted_deliverSingleClientDeliveryTask store (ans task) ha
  have logged := tried.logged
  unfold deliverClientDeliveryTasks
  rw [if_neg (by simp [hc.running]), if_neg (by simp [hc.window])]
  rcases tried.advances ha with ⟨hm, -⟩ | ⟨hs, hf, hb⟩
  · split
    next next same =>
      rw [same] at hm logged
      exact ⟨[task], hm, logged, .inr (by simp)⟩
    next next same =>
      rw [same] at hm logged
      split
      · have suffix : next.pending = rest ++ more := by
          have split := hm.split
          rw [ha] at split
          exact (List.cons.inj split).2.symm
        obtain ⟨passed, hl⟩ := deliverClientDeliveryTasks_advances store ans suffix
        exact ⟨[task] ++ passed, hm.trans hl, hl.kept task logged, .inr (by simp)⟩
      · exact ⟨[task], hm, logged, .inr (by simp)⟩
  · split
    next next same =>
      rw [same] at hs logged
      exact ⟨[], hs, logged, .inl (hb hc)⟩
    next next same =>
      rw [same] at hf
      nomatch hf

theorem pending_eq_readTasks_append (rnr : DeliveryRunner) :
    rnr.pending = rnr.queue.readTasks rnr.last 200 ++ rnr.pending.drop 200 :=
  (take_append_drop 200 rnr.pending).symm

theorem pass_advances (store : PayloadStore) (rnr : DeliveryRunner) (ans : PassAnswers) :
    ∃ passed, Advances store rnr (rnr.pass store ans) passed := by
  unfold pass
  split
  · exact ⟨[], .refl store rnr⟩
  · exact deliverClientDeliveryTasks_advances store ans.attempt rnr.pending_eq_readTasks_append

theorem pass_first (store : PayloadStore) {ans : PassAnswers} (first : rnr.pending = task :: rest)
    (hc : ans.Clear rnr) :
    ∃ passed, Advances store rnr (rnr.pass store ans) passed ∧
      task ∈ (rnr.pass store ans).attempted ∧ (store.Blocking task ∨ passed ≠ []) := by
  have hr : rnr.queue.readTasks rnr.last 200 = task :: rest.take 199 := by
    have ht : rnr.queue.readTasks rnr.last 200 = rnr.pending.take 200 := rfl
    rw [ht, first, take_succ_cons]
  have ha := rnr.pending_eq_readTasks_append
  rw [hr] at ha
  unfold pass
  rw [if_neg (by simp [hc.reads]), hr]
  exact deliverClientDeliveryTasks_first store ans.attempt ha (hc.first task (by rw [first]; rfl))

theorem afterPasses_advances (store : PayloadStore) (rnr : DeliveryRunner)
    (passes : Nat → PassAnswers) {n m : Nat} (ho : n ≤ m) :
    ∃ passed, Advances store (rnr.afterPasses store passes n)
      (rnr.afterPasses store passes m) passed := by
  induction ho with
  | refl => exact ⟨[], .refl _ _⟩
  | step _ ih =>
    obtain ⟨passed, he⟩ := ih
    obtain ⟨more, hl⟩ := pass_advances store _ (passes _)
    exact ⟨passed ++ more, he.trans hl⟩

theorem not_attempted_of_blocking (passes : Nat → PassAnswers) (n : Nat)
    {blocking later : DeliveryTask} (hw : blocking ∈ rnr.pending)
    (bad : store.Blocking blocking) (hb : blocking.position < later.position)
    (hu : later ∉ rnr.attempted) :
    later ∉ (rnr.afterPasses store passes n).attempted := by
  intro ha
  obtain ⟨passed, moves⟩ := afterPasses_advances store rnr passes (Nat.zero_le n)
  have hs : rnr.pending.Pairwise fun a b => a.position < b.position :=
    rnr.queue.tasks.after_sorted _
  rw [afterPasses] at moves
  rw [moves.split] at hs hw
  obtain ⟨-, sorted, across⟩ := pairwise_append.mp hs
  have hr := (mem_append.mp hw).resolve_left fun hg =>
    moves.readable blocking hg bad
  rcases moves.bounded later ha with start | hg | hh
  · exact hu start
  · exact absurd (across later hg blocking hr) hb.not_gt
  · cases hp : (rnr.afterPasses store passes n).pending with
    | nil =>
      rw [hp] at hr
      nomatch hr
    | cons next others =>
      rw [hp] at hr hh sorted
      cases hh
      rcases mem_cons.mp hr with he | behindNext
      · exact absurd hb (by rw [he]; exact lt_irrefl _)
      · exact absurd ((pairwise_cons.mp sorted).1 blocking behindNext) hb.not_gt

/-- With fair passes, a queue whose only blocking task can be its last is worked off. -/
theorem attempted_of_fair {passes : Nat → PassAnswers} (hf : Fair store rnr passes)
    (final : ∀ before blocking behind, rnr.pending = before ++ blocking :: behind →
      store.Blocking blocking → behind = []) (length n : Nat)
    (short : (rnr.afterPasses store passes n).pending.length ≤ length) :
    ∀ task ∈ (rnr.afterPasses store passes n).pending,
      ∃ m, task ∈ (rnr.afterPasses store passes m).attempted := by
  induction length generalizing n with
  | zero =>
    intro task hw
    rw [length_eq_zero_iff.mp (Nat.le_zero.mp short)] at hw
    nomatch hw
  | succ length ih =>
    intro task hw
    obtain ⟨m, hl, hc⟩ := hf n
    obtain ⟨passed, moves⟩ := afterPasses_advances store rnr passes hl
    rw [moves.split] at hw
    rcases mem_append.mp hw with hg | hr
    · exact ⟨m, moves.covered task hg⟩
    cases first : (rnr.afterPasses store passes m).pending with
    | nil =>
      rw [first] at hr
      nomatch hr
    | cons next others =>
      obtain ⟨moved, hs, ha, progress⟩ := pass_first store first hc
      change Advances store _ (rnr.afterPasses store passes (m + 1)) moved at hs
      rw [hs.split] at hr
      rcases mem_append.mp hr with now | still
      · exact ⟨m + 1, hs.covered task now⟩
      rcases progress with hb | hn
      -- a blocking task is the last one, so it is the task itself
      · obtain ⟨before, start⟩ := afterPasses_advances store rnr passes (Nat.zero_le m)
        have alone := final before next others (start.split.trans (by rw [first])) hb
        have hm : task ∈ next :: others := by
          rw [← first, hs.split]
          exact mem_append_right _ still
        rw [alone, mem_singleton] at hm
        exact ⟨m + 1, hm ▸ ha⟩
      · refine ih (m + 1) ?_ task still
        have ht : (rnr.afterPasses store passes n).pending.length = passed.length + (moved.length +
              (rnr.afterPasses store passes (m + 1)).pending.length) := by
          rw [moves.split, hs.split, length_append, length_append]
        have hp := length_pos_iff.mpr hn
        omega

theorem fair_undisturbed (store : PayloadStore) (rnr : DeliveryRunner) :
    Fair store rnr fun _ => {} := by
  have hc : AttemptAnswers.Clear {} := ⟨rfl, rfl, rfl, by decide, rfl, by decide⟩
  exact fun n => ⟨n, le_rfl, rfl, fun _ _ => hc⟩

/-- Whatever the stored payloads are: every task is attempted under every fair sequence
of passes exactly when nothing is queued behind a blocking task. -/
theorem every_task_attempted_iff (store : PayloadStore) (queue : ClientQueue) (last : Position) :
    (∀ passes, Fair store ⟨queue, last, []⟩ passes → ∀ task ∈ queue.tasks.after last,
      ∃ n, task ∈ (afterPasses store ⟨queue, last, []⟩ passes n).attempted) ↔
    ∀ before blocking behind, queue.tasks.after last = before ++ blocking :: behind →
      store.Blocking blocking → behind = [] := by
  constructor
  · intro always before blocking behind split bad
    cases behind with
    | nil => rfl
    | cons later others =>
      have hw : later ∈ queue.tasks.after last := by simp [split]
      obtain ⟨n, ha⟩ := always _ (fair_undisturbed store _) later hw
      have hs := queue.tasks.after_sorted last
      rw [split] at hs
      have behindBlocking : blocking.position < later.position :=
        (pairwise_cons.mp (pairwise_append.mp hs).2.1).1 later mem_cons_self
      have waits : blocking ∈ queue.tasks.after last := by simp [split]
      exact absurd ha (not_attempted_of_blocking _ n waits bad behindBlocking not_mem_nil)
  · intro final passes hf task hw
    exact attempted_of_fair hf final _ 0 le_rfl task hw

/-- A queue of two tasks; the payload of the first is a byte that does not decode. -/
def undecodableTask : DeliveryTask := ⟨1, 1, 1, 1, 0, [], false, false, "", UUID.nil⟩

def taskBehind : DeliveryTask := ⟨2, 2, 2, 1, 0, [], false, false, "", UUID.nil⟩

def undecodableFirst : DeliveryRunner where
  queue := ⟨⟨[undecodableTask, taskBehind], by decide⟩, none, by decide⟩
  last := beforeAllTasks

def undecodableStore : PayloadStore where
  clientID := "alice"
  payloads messageID := if messageID = 1 then some [255] else some [1]
  decode raw :=
    if raw = [255] then none else some ⟨⟨⟨"a", [], 1, false, false, 0, {}⟩, 1, 0⟩, "bob"⟩
  validUTF8 _ := true

theorem undecodable_payload_stalls_queue : taskBehind ∈ undecodableFirst.pending ∧
      Fair undecodableStore undecodableFirst (fun _ => {}) ∧
      ∀ passes n,
        taskBehind ∉ (undecodableFirst.afterPasses undecodableStore passes n).attempted := by
  refine ⟨by decide, fair_undisturbed _ _, fun passes n => ?_⟩
  have hw : undecodableTask ∈ undecodableFirst.pending := by decide
  have bad : undecodableStore.Blocking undecodableTask := .inr ⟨[255], rfl, by decide, rfl⟩
  exact not_attempted_of_blocking passes n hw bad (by decide) not_mem_nil

end DeliveryRunner

end SkyTree.Client
