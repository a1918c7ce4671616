import Mathlib.Data.String.Basic
import SkyTree.Foundation.IndexedHeap

/-!
# The passive scheduler

A heap of tasks ordered by expiry and, beside it, a map of their keys. `GetExpired` walks the heap
with a stack of its own and removes nothing.
-/

namespace SkyTree.Scheduler

open Foundation.IndexedHeap List

universe u

class Task (T : Type u) where
  getKey : T → String
  getExpireTime : T → Int

open SkyTree.Scheduler.Task

variable {T : Type u} [Task T]

/-- `Less` compares the expiry times and then the keys. -/
def rank (task : T) : Int ×ₗ String := toLex (getExpireTime task, getKey task)

variable (T) in
abbrev TaskSwaps := Swaps (rank : T → Int ×ₗ String)

variable (T) in
/-- The heap with its map; no task without a key gets in. -/
structure PassiveScheduler where
  heap : Heap (getKey : T → String)
  sound : heap.Sound rank
  named : ∀ task ∈ heap.items, getKey task ≠ ""

def newPassiveScheduler : PassiveScheduler T := ⟨{}, Heap.sound_empty, nofun⟩

def put (swaps : TaskSwaps T) (heap : Heap (getKey : T → String)) (task : T) :
    Heap (getKey : T → String) :=
  if (heap.byKey (getKey task)).isSome then heap.alter swaps (getKey task) fun _ => task
  else heap.push swaps task

theorem put_spec (swaps : TaskSwaps T) {heap : Heap (getKey : T → String)} (sound : heap.Sound rank)
    (task : T) : (put swaps heap task).Sound rank ∧ ∀ other, other ∈ (put swaps heap task).items ↔
      other = task ∨ other ∈ heap.items ∧ getKey other ≠ getKey task := by
  unfold put
  cases found : heap.byKey (getKey task) with
  | none =>
    have absent := sound.inPlace.byKey_eq_none_iff.mp found
    obtain ⟨kept, perm⟩ := sound.push swaps task found
    refine ⟨kept, fun other => perm.mem_iff.trans ?_⟩
    grind
  | some i =>
    obtain ⟨old, place, same⟩ := Option.map_eq_some_iff.mp ((sound.inPlace _ i).mp found)
    have member := mem_of_getElem? place
    obtain ⟨kept, perm⟩ := sound.alter swaps (getKey task) (fun _ => task) fun _ _ => rfl
    refine ⟨kept, fun other => perm.mem_iff.trans ?_⟩
    grind

namespace PassiveScheduler

variable (swaps : TaskSwaps T) (s : PassiveScheduler T)

instance instMembership : Membership T (PassiveScheduler T) := ⟨fun s task => task ∈ s.heap.items⟩

/-- A missing task and a task without a key are ignored. -/
def add : Option T → PassiveScheduler T
  | none => s
  | some task =>
    if unnamed : getKey task = "" then s
    else
      { heap := put swaps s.heap task
        sound := (put_spec swaps s.sound task).1
        named := fun other member => by
          rcases ((put_spec swaps s.sound task).2 other).mp member with rfl | ⟨stored, -⟩
          · exact unnamed
          · exact s.named other stored }

def remove (key : String) : PassiveScheduler T :=
  if key = "" then s
  else
    { heap := s.heap.remove swaps key
      sound := (s.sound.remove swaps key).1
      named := fun task member =>
        s.named task (mem_of_mem_filter ((s.sound.remove swaps key).2.mem_iff.mp member)) }

/-- Every listed task puts two indices on the stack, so twice the length and one rounds suffice. -/
def getExpiredLoop (items : List T) (currentTime : Int) : Nat → List Nat → List T → List T
  | 0, _, expiredTasks => expiredTasks
  | _ + 1, [], expiredTasks => expiredTasks
  | fuel + 1, index :: stack, expiredTasks =>
    match items[index]? with
    | none => getExpiredLoop items currentTime fuel stack expiredTasks
    | some task =>
      if getExpireTime task > currentTime then
        getExpiredLoop items currentTime fuel stack expiredTasks
      else getExpiredLoop items currentTime fuel ((2 * index + 2) :: (2 * index + 1) :: stack)
        (expiredTasks ++ [task])

def getExpired (currentTime : Int) : List T :=
  match s.heap.items with
  | [] => []
  | first :: _ =>
    if getExpireTime first > currentTime then []
    else getExpiredLoop s.heap.items currentTime (2 * s.heap.items.length + 1) [0] []

variable {swaps s} {task other : T}

theorem mem_add (named : getKey task ≠ "") :
    other ∈ s.add swaps (some task) ↔ other = task ∨ other ∈ s ∧ getKey other ≠ getKey task := by
  rw [add, dif_neg named]
  exact (put_spec swaps s.sound task).2 other

theorem mem_remove {key : String} : task ∈ s.remove swaps key ↔ task ∈ s ∧ getKey task ≠ key := by
  unfold remove
  split
  · next unnamed => exact ⟨fun member => ⟨member, unnamed ▸ s.named task member⟩, And.left⟩
  · refine (s.sound.remove swaps key).2.mem_iff.trans ?_
    rw [mem_filter, decide_eq_true_eq]
    rfl

theorem eq_of_key_eq (first : task ∈ s) (second : other ∈ s) (same : getKey task = getKey other) :
    task = other :=
  inj_on_of_nodup_map s.sound.inPlace.distinct first second same

/-! ## The walk over the heap -/

theorem loop_eq (items : List T) (now : Int) {depth index : Nat}
    (enough : items.length ≤ depth + index) :
    ∃ found : List Nat, found.Perm (collectAtOrBefore getExpireTime items now depth index) ∧
      ∀ fuel stack out,
        getExpiredLoop items now (fuel + (2 * found.length + 1)) (index :: stack) out =
          getExpiredLoop items now fuel stack (out ++ found.filterMap (items[·]?)) := by
  induction depth generalizing index with
  | zero =>
    refine ⟨[], .nil, fun fuel stack out => ?_⟩
    rw [length_nil, getExpiredLoop, getElem?_eq_none (by omega)]
    simp
  | succ depth ih =>
    rw [collectAtOrBefore]
    cases found : items[index]? with
    | none =>
      refine ⟨[], .nil, fun fuel stack out => ?_⟩
      rw [length_nil, getExpiredLoop, found]
      simp
    | some task =>
      dsimp only
      by_cases late : now < getExpireTime task
      · refine ⟨[], by rw [if_pos late], fun fuel stack out => ?_⟩
        rw [length_nil, getExpiredLoop, found]
        simp [late]
      · -- the right child is on top of the stack
        obtain ⟨right, permRight, walkRight⟩ := @ih (2 * index + 2) (by omega)
        obtain ⟨left, permLeft, walkLeft⟩ := @ih (2 * index + 1) (by omega)
        refine ⟨index :: (right ++ left), ?_, fun fuel stack out => ?_⟩
        · rw [if_neg late]
          exact (perm_append_comm.trans (permLeft.append permRight)).cons index
        · have rounds : fuel + (2 * (index :: (right ++ left)).length + 1) =
              fuel + (2 * left.length + 1) + (2 * right.length + 1) + 1 := by
            simp only [length_cons, length_append]
            omega
          rw [rounds, getExpiredLoop, found]
          dsimp only
          rw [if_neg late, walkRight, walkLeft, filterMap_cons_some found, filterMap_append]
          simp only [append_assoc, cons_append, nil_append]

@[simp] theorem loop_nil (items : List T) (now : Int) (fuel : Nat) (out : List T) :
    getExpiredLoop items now fuel [] out = out := by
  cases fuel <;> rfl

theorem getExpired_eq_loop (now : Int) : s.getExpired now =
    getExpiredLoop s.heap.items now (2 * s.heap.items.length + 1) [0] [] := by
  unfold getExpired
  split
  · next empty => simp [empty, getExpiredLoop]
  · next first rest filled =>
    split
    · next late => simp [getExpiredLoop, filled, late]
    · rfl

theorem getExpired_spec (s : PassiveScheduler T) (now : Int) : (s.getExpired now).Nodup ∧
    ∀ task, task ∈ s.getExpired now ↔ task ∈ s ∧ getExpireTime task ≤ now := by
  obtain ⟨found, perm, walk⟩ := loop_eq s.heap.items now (Nat.le_add_right s.heap.items.length 0)
  have few : found.length ≤ s.heap.items.length := by
    refine (subperm_of_subset (perm.nodup_iff.mpr nodup_collect) fun i member =>
      mem_range.mpr ?_).length_le.trans_eq length_range
    obtain ⟨⟨task, place, -⟩, -⟩ := mem_collect (perm.mem_iff.mp member)
    exact (List.getElem?_eq_some_iff.mp place).1
  have eq : s.getExpired now = found.filterMap (s.heap.items[·]?) := by
    rw [getExpired_eq_loop, show 2 * s.heap.items.length + 1 =
      2 * (s.heap.items.length - found.length) + (2 * found.length + 1) by omega, walk, loop_nil,
      nil_append]
  rw [eq]
  have earlier (a b : T) (notAfter : rank a ≤ rank b) :=
    (Prod.Lex.toLex_le_toLex.mp notAfter).elim le_of_lt fun same => same.1.le
  exact collect_spec earlier s.sound.ordered (s.sound.inPlace.distinct.of_map _) perm

end PassiveScheduler

/-! ## Runs -/

variable (T) in
inductive Call where
  | add (task : Option T)
  | remove (key : String)
  | getExpired (currentTime : Int)

def PassiveScheduler.apply (swaps : TaskSwaps T) (s : PassiveScheduler T) :
    Call T → PassiveScheduler T
  | .add task => s.add swaps task
  | .remove key => s.remove swaps key
  | .getExpired _ => s

def PassiveScheduler.run (swaps : TaskSwaps T) (calls : List (Call T)) : PassiveScheduler T :=
  calls.foldl (PassiveScheduler.apply swaps) newPassiveScheduler

/-- The call removes the task or replaces it by another one. -/
def Displaces (task : T) : Call T → Prop
  | .remove key => key = getKey task
  | .add (some other) => getKey other = getKey task ∧ other ≠ task
  | _ => False

/-- The task was added and has been neither removed nor replaced since. -/
def Scheduled (calls : List (Call T)) (task : T) : Prop :=
  getKey task ≠ "" ∧ ∃ before later, calls = before ++ .add (some task) :: later ∧
    ∀ call ∈ later, ¬Displaces task call

theorem scheduled_append {calls : List (Call T)} {call : Call T} {task : T} :
    Scheduled (calls ++ [call]) task ↔ getKey task ≠ "" ∧ call = .add (some task) ∨
      Scheduled calls task ∧ ¬Displaces task call := by
  constructor
  · rintro ⟨named, before, later, eq, stays⟩
    rcases eq_nil_or_concat later with rfl | ⟨later, last, rfl⟩
    · exact .inl ⟨named, (List.cons.inj (append_inj' eq rfl).2).1⟩
    · rw [concat_eq_append, ← cons_append, ← append_assoc] at eq
      obtain ⟨rfl, last⟩ := append_inj' eq rfl
      obtain rfl := (List.cons.inj last).1
      exact .inr ⟨⟨named, before, later, rfl, by grind⟩, stays _ (by simp)⟩
  · rintro (⟨named, rfl⟩ | ⟨⟨named, before, later, rfl, stays⟩, kept⟩)
    · exact ⟨named, calls, [], rfl, by simp⟩
    · exact ⟨named, before, later ++ [call], by simp, by grind⟩

variable (swaps : TaskSwaps T)

theorem mem_run_iff (calls : List (Call T)) (task : T) :
    task ∈ PassiveScheduler.run swaps calls ↔ Scheduled calls task := by
  induction calls using reverseRecOn generalizing task with
  | nil => exact ⟨nofun, fun ⟨_, before, _, eq, _⟩ => by simp at eq⟩
  | append_singleton calls call ih =>
    rw [scheduled_append, ← ih, PassiveScheduler.run, foldl_append, foldl_cons, foldl_nil,
      ← PassiveScheduler.run]
    generalize PassiveScheduler.run swaps calls = s
    cases call with
    | getExpired now => simp [Displaces, PassiveScheduler.apply]
    | remove key =>
      refine PassiveScheduler.mem_remove.trans ?_
      grind [Displaces]
    | add added =>
      cases added with
      | none => simp [Displaces, PassiveScheduler.apply, PassiveScheduler.add]
      | some added =>
        by_cases unnamed : getKey added = ""
        · have : task ∈ s → getKey task ≠ "" := s.named task
          rw [PassiveScheduler.apply, PassiveScheduler.add, dif_pos unnamed]
          grind [Displaces]
        · refine (PassiveScheduler.mem_add unnamed).trans ?_
          grind [Displaces]

/-- Each call of `GetExpired` lists the scheduled tasks that are due, each once. -/
theorem getExpired_lists_scheduled (calls : List (Call T)) (currentTime : Int) :
    let s := PassiveScheduler.run swaps calls
    (s.getExpired currentTime).Nodup ∧ ∀ task, task ∈ s.getExpired currentTime ↔
      Scheduled calls task ∧ getExpireTime task ≤ currentTime := by
  obtain ⟨distinct, mem⟩ :=
    PassiveScheduler.getExpired_spec (PassiveScheduler.run swaps calls) currentTime
  refine ⟨distinct, fun task => (mem task).trans ?_⟩
  rw [mem_run_iff]

structure NumberedTask where
  key : String
  expireTime : Int
  serial : Nat
  deriving DecidableEq

instance numberedTask : Task NumberedTask := ⟨NumberedTask.key, NumberedTask.expireTime⟩

def firstTask : NumberedTask := ⟨"a", 1, 0⟩

def replacingCalls : List (Call NumberedTask) :=
  [.add (some firstTask), .add (some ⟨"b", 2, 1⟩), .add (some ⟨"c", 3, 2⟩),
    .add (some ⟨"a", 4, 3⟩), .remove "b"]

theorem getExpired_lists_replacement :
    let s := PassiveScheduler.run (.sifting rank) replacingCalls
    s.getExpired 5 = [⟨"c", 3, 2⟩, ⟨"a", 4, 3⟩] ∧
      ∀ task ∈ s.getExpired 5, Scheduled replacingCalls task :=
  ⟨by decide, fun task listed =>
    (((getExpired_lists_scheduled (.sifting rank) replacingCalls 5).2 task).mp listed).1⟩

/-- `GetExpired` removes nothing, so the next call returns the task again. -/
theorem returned_twice :
    (PassiveScheduler.run (.sifting rank) [.add (some firstTask)]).getExpired 5 = [firstTask] ∧
    (PassiveScheduler.run (.sifting rank) [.add (some firstTask), .getExpired 5]).getExpired 5 =
      [firstTask] := by
  decide

end SkyTree.Scheduler
