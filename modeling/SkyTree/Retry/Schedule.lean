import SkyTree.Foundation.Transition
import SkyTree.Scheduler.Passive

/-!
# The retry schedule

A pass of the active scheduler lists the expired tasks and then, task by task, runs the
callback and removes the key. The callback of a failed attempt adds the retry under the same
key, and other callers add and delete at any moment, so a removal may hit a task that never
fired. Every added task carries the number of its `Add` call.
-/

namespace SkyTree.Retry

open Foundation Scheduler List

/-- A retry task with the expiry of its adapter and the number of its `Add` call. -/
structure Task where
  key : String
  retryCount : Nat := 0
  maxRetries : Nat := 0
  expireTime : Int
  serial : Nat := 0
  deriving DecidableEq, Repr

instance taskAdapter : Scheduler.Task Task := ⟨Task.key, Task.expireTime⟩

/-- No limit is written as zero. -/
def Task.isRetryExceeded (task : Task) : Bool :=
  task.maxRetries != 0 && decide (task.maxRetries ≤ task.retryCount)

inductive Outcome where
  | timeout
  | failed
  | succeeded
  deriving DecidableEq, Repr

/-- The scheduled tasks, the tasks that the running pass has still to remove, whether the
callback of the first of them has run, and what became of the others. -/
structure Schedule where
  scheduler : PassiveScheduler Task := newPassiveScheduler
  pass : List Task := []
  called : Bool := false
  next : Nat := 0
  fired : List Nat := []
  replaced : List Nat := []
  removed : List Nat := []

inductive Label where
  | create (task : Task)
  | delete (key : String)
  | tick (currentTime : Int)
  | call (outcome : Outcome) (expireTime : Int)
  | finish

namespace Schedule

variable (swaps : TaskSwaps Task) (s : Schedule)

def serialsAt (key : String) : List Nat :=
  (s.scheduler.heap.items.filter fun task => task.key = key).map Task.serial

/-- `Add` replaces the task of the key; a task without a key is ignored. -/
def add (task : Task) : Schedule :=
  if task.key = "" then s
  else { s with
    scheduler := s.scheduler.add swaps (some { task with serial := s.next })
    next := s.next + 1
    replaced := s.serialsAt task.key ++ s.replaced }

/-- `handleTask`; a failed attempt is scheduled again unless the retries are exceeded. -/
def handleTask (task : Task) (outcome : Outcome) (expireTime : Int) : Schedule :=
  if outcome = .failed ∧ task.isRetryExceeded = false then
    s.add swaps { task with retryCount := task.retryCount + 1, expireTime }
  else s

def step : Label → Option Schedule
  | .create task => some (s.add swaps task)
  | .delete key =>
    some { s with
      scheduler := s.scheduler.remove swaps key
      removed := s.serialsAt key ++ s.removed }
  | .tick currentTime =>
    if s.pass = [] then
      some { s with pass := s.scheduler.getExpired currentTime, called := false }
    else none
  | .call outcome expireTime =>
    match s.pass with
    | task :: _ =>
      if s.called then none
      else some (handleTask swaps { s with fired := task.serial :: s.fired, called := true } task
        outcome expireTime)
    | [] => none
  | .finish =>
    match s.pass with
    | task :: rest =>
      if s.called then
        some { s with
          scheduler := s.scheduler.remove swaps task.key
          pass := rest
          called := false }
      else none
    | [] => none

def Kept : Prop :=
  ∀ serial < s.next, (∃ task ∈ s.scheduler, task.serial = serial) ∨ serial ∈ s.fired ∨
    serial ∈ s.replaced ∨ serial ∈ s.removed

end Schedule

def schedule (swaps : TaskSwaps Task) : System Schedule Label := ⟨Schedule.step swaps⟩

/-- Nothing is added under a key that the pass has listed and not removed yet. -/
def AddsUnlisted (s : Schedule) : Label → Prop
  | .create task => ∀ listed ∈ s.pass, listed.key ≠ task.key
  | .call outcome _ => ∀ task ∈ s.pass.head?, outcome = .failed → task.isRetryExceeded = true
  | _ => True

structure Schedule.Sound (s : Schedule) : Prop where
  kept : s.Kept
  listed : ∀ task ∈ s.pass, ∀ entry ∈ s.scheduler, entry.key = task.key →
    entry.serial = task.serial
  called : s.called = true → ∀ task ∈ s.pass.head?, task.serial ∈ s.fired

section Steps

variable {swaps : TaskSwaps Task} {s next : Schedule} {task entry : Task}

theorem Schedule.serial_mem (member : entry ∈ s.scheduler) :
    entry.serial ∈ s.serialsAt entry.key :=
  mem_map_of_mem (mem_filter.mpr ⟨member, by simp⟩)

theorem Schedule.Kept.add (kept : s.Kept) (task : Task) : (s.add swaps task).Kept := by
  unfold Schedule.add
  split
  · exact kept
  · next named =>
    intro serial bound
    have mem (other : Task) :
        other ∈ s.scheduler.add swaps (some { task with serial := s.next }) ↔ _ :=
      PassiveScheduler.mem_add named
    rcases Nat.lt_succ_iff_lt_or_eq.mp bound with old | rfl
    · rcases kept serial old with ⟨entry, member, rfl⟩ | gone
      · by_cases same : entry.key = task.key
        · exact .inr (.inr (.inl (mem_append_left _ (same ▸ serial_mem member))))
        · exact .inl ⟨entry, (mem entry).mpr (.inr ⟨member, same⟩), rfl⟩
      · exact .inr (gone.imp_right (.imp_left (mem_append_right _)))
    · exact .inl ⟨_, (mem _).mpr (.inl rfl), rfl⟩

theorem Schedule.Sound.add (sound : s.Sound) (apart : ∀ listed ∈ s.pass, listed.key ≠ task.key) :
    (s.add swaps task).Sound := by
  refine ⟨sound.kept.add task, ?_, ?_⟩ <;> unfold Schedule.add <;> split
  · exact sound.listed
  · next named =>
    intro listed member entry stored same
    rcases (PassiveScheduler.mem_add named).mp stored with rfl | ⟨old, -⟩
    · exact absurd same.symm (apart listed member)
    · exact sound.listed listed member entry old same
  · exact sound.called
  · exact sound.called

theorem Schedule.Kept.erase (kept : s.Kept) {key : String} {removed : List Nat}
    (gone : ∀ entry ∈ s.scheduler, entry.key = key →
      entry.serial ∈ s.fired ∨ entry.serial ∈ removed)
    (stay : ∀ serial ∈ s.removed, serial ∈ removed) :
    Schedule.Kept { s with scheduler := s.scheduler.remove swaps key, removed := removed } := by
  intro serial bound
  rcases kept serial bound with ⟨entry, stored, rfl⟩ | fired | replaced | deleted
  · by_cases same : entry.key = key
    · exact .inr ((gone entry stored same).imp_right .inr)
    · exact .inl ⟨entry, PassiveScheduler.mem_remove.mpr ⟨stored, same⟩, rfl⟩
  · exact .inr (.inl fired)
  · exact .inr (.inr (.inl replaced))
  · exact .inr (.inr (.inr (stay serial deleted)))

theorem Schedule.Sound.step {label : Label} (sound : s.Sound) (condition : AddsUnlisted s label)
    (taken : s.step swaps label = some next) : next.Sound := by
  cases label with
  | create task =>
    cases taken
    exact sound.add condition
  | delete key =>
    cases taken
    refine ⟨sound.kept.erase (fun entry stored same => .inr ?_) fun _ => mem_append_right _,
      fun task listed entry stored =>
        sound.listed task listed entry (PassiveScheduler.mem_remove.mp stored).1, sound.called⟩
    exact mem_append_left _ (same ▸ serial_mem stored)
  | tick currentTime =>
    obtain ⟨-, rfl⟩ := of_guard taken
    refine ⟨sound.kept, fun task listed entry stored same => ?_, nofun⟩
    have scheduled := (((s.scheduler.getExpired_spec currentTime).2 task).mp listed).1
    rw [PassiveScheduler.eq_of_key_eq stored scheduled same]
  | call outcome expireTime =>
    simp only [Schedule.step] at taken
    split at taken
    · next task rest pass =>
      obtain ⟨-, eq⟩ := Option.ite_none_left_eq_some.mp taken
      cases eq
      have exceeded : ¬ (outcome = .failed ∧ task.isRetryExceeded = false) := fun ⟨failed, more⟩ =>
        absurd (condition task (by rw [pass]; rfl) failed) (by simp [more])
      rw [Schedule.handleTask, if_neg exceeded]
      refine ⟨fun serial bound => (sound.kept serial bound).imp_right (.imp_left (.tail _)),
        sound.listed, ?_⟩
      rintro - head first
      rw [pass] at first
      cases first
      exact mem_cons_self
    · cases taken
  | finish =>
    simp only [Schedule.step] at taken
    split at taken
    · next task rest pass =>
      obtain ⟨called, rfl⟩ := of_guard taken
      have fired : task.serial ∈ s.fired := sound.called called task (by rw [pass]; rfl)
      have listed : task ∈ s.pass := by rw [pass]; exact mem_cons_self
      refine ⟨sound.kept.erase (fun entry stored same =>
        .inl (sound.listed task listed entry stored same ▸ fired)) fun _ => id,
        fun other later entry stored => ?_, nofun⟩
      exact sound.listed other (by rw [pass]; exact .tail _ later) entry
        (PassiveScheduler.mem_remove.mp stored).1
    · cases taken

/-- While nothing is added under a listed key, no added task is lost. -/
theorem tasks_kept {s : Schedule} (reached : (schedule swaps).Reached AddsUnlisted {} s) :
    s.Kept := by
  have sound : s.Sound :=
    reached.invariant ⟨nofun, nofun, nofun⟩ fun _ _ _ sound condition taken =>
      sound.step condition taken
  exact sound.kept

end Steps

def retried : Task := { key := "k", expireTime := 1 }

def attempt (outcome : Outcome) : List Label :=
  [.create retried, .tick 1, .call outcome 5, .finish]

def succeeding : List Label :=
  [.create retried, .tick 1, .create { key := "other", expireTime := 1 }, .call .succeeded 5,
    .finish, .create retried]

theorem tasks_kept_after_success :
    ∃ s, (schedule (.sifting _)).run {} succeeding = some s ∧ s.Kept ∧
      ∃ task ∈ s.scheduler, task.serial = 2 := by
  refine ⟨_, rfl, tasks_kept (System.reached_of_run
    (show (schedule (.sifting _)).run {} succeeding = some _ from rfl) ?_), ?_⟩
  · refine ⟨nofun, trivial, ?_, fun _ _ => nofun, trivial, nofun, trivial⟩
    show ∀ listed ∈ [{ retried with serial := 0 }], listed.key ≠ "other"
    decide
  · decide

/-- The retry of a failed attempt is removed with the attempt. -/
theorem retry_removed_by_pass : ∃ s, (schedule (.sifting _)).run {} (attempt .failed) = some s ∧
    s.scheduler.heap.items = [] ∧ ¬ s.Kept := by
  refine ⟨_, rfl, by decide, fun kept => ?_⟩
  have gone := kept 1 (by decide)
  revert gone
  decide

end SkyTree.Retry
