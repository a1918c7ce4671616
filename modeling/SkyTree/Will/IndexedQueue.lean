import SkyTree.Foundation.IndexedHeap

/-!
# The indexed queue

An entry is told apart by its key. The heap lists the entries, and the map from keys holds the
one field that changes as an entry moves, its index. `container/heap` moves entries by swaps
alone.
-/

namespace SkyTree.Will

open Foundation.IndexedHeap List Function

universe u v

structure Entry (K : Type u) (V : Type v) where
  key : K
  priority : Int
  value : V
  seq : Nat
  deriving DecidableEq

structure IndexedQueue (K : Type u) (V : Type v) extends Heap (Entry.key : Entry K V → K) where
  next : Nat := 0

inductive QueueCall (K : Type u) (V : Type v) where
  | upsert (key : K) (priority : Int) (value : V)
  | remove (key : K)

/-- The finite map, with the number of insertions before each key's own. -/
structure Ledger (K : Type u) (V : Type v) where
  entries : K → Option (Entry K V) := fun _ => none
  next : Nat := 0

variable {K : Type u} {V : Type v}

/-- `Less` compares the priorities and then the numbers of insertion. -/
def Entry.rank (item : Entry K V) : Int ×ₗ Nat := toLex (item.priority, item.seq)

theorem Entry.priority_le (a b : Entry K V) (notAfter : a.rank ≤ b.rank) :
    a.priority ≤ b.priority :=
  (Prod.Lex.toLex_le_toLex.mp notAfter).elim le_of_lt fun same => same.1.le

def Ledger.apply [DecidableEq K] (m : Ledger K V) : QueueCall K V → Ledger K V
  | .upsert key priority value =>
    match m.entries key with
    | some item => { m with entries := update m.entries key (some { item with priority, value }) }
    | none =>
      { entries := update m.entries key (some { key, priority, value, seq := m.next })
        next := m.next + 1 }
  | .remove key => { m with entries := update m.entries key none }

namespace IndexedQueue

variable (q : IndexedQueue K V)

def peek : Option (K × Int × V) :=
  q.items[0]?.map fun item => (item.key, item.priority, item.value)

def valuesAtOrBefore (priority : Int) : List V :=
  let due := collectAtOrBefore Entry.priority q.items priority q.items.length 0
  ((due.filterMap (q.items[·]?)).insertionSort fun a b => a.rank ≤ b.rank).map Entry.value

section Calls

variable [DecidableEq K] (swaps : Swaps (Entry.rank : Entry K V → Int ×ₗ Nat))

def upsert (key : K) (priority : Int) (value : V) : IndexedQueue K V :=
  if (q.byKey key).isSome then
    { q with toHeap := q.alter swaps key fun item => { item with priority, value } }
  else { toHeap := q.push swaps { key, priority, value, seq := q.next }, next := q.next + 1 }

def remove (key : K) : IndexedQueue K V := { q with toHeap := q.toHeap.remove swaps key }

def apply : QueueCall K V → IndexedQueue K V
  | .upsert key priority value => q.upsert swaps key priority value
  | .remove key => q.remove swaps key

def run (calls : List (QueueCall K V)) : IndexedQueue K V :=
  calls.foldl (fun q => q.apply swaps) {}

end Calls

/-! ### The queue as a map -/

/-- The queue is in order and lists the entries of the map. -/
structure Holds (q : IndexedQueue K V) (m : Ledger K V) : Prop where
  sound : q.Sound Entry.rank
  next : q.next = m.next
  mem : ∀ key item, m.entries key = some item ↔ item ∈ q.items ∧ item.key = key

variable {q} {m : Ledger K V}

theorem holds_empty : Holds ({} : IndexedQueue K V) {} := ⟨Heap.sound_empty, rfl, by simp⟩

theorem valuesAtOrBefore_spec (sound : q.Sound Entry.rank) (bound : Int) :
    ∃ due : List (Entry K V), q.valuesAtOrBefore bound = due.map Entry.value ∧ due.Nodup ∧
      due.Pairwise (fun a b => a.rank ≤ b.rank) ∧
      ∀ item, item ∈ due ↔ item ∈ q.items ∧ item.priority ≤ bound := by
  obtain ⟨distinct, mem⟩ := collect_spec Entry.priority_le sound.ordered
    (sound.inPlace.distinct.of_map _) (.refl (collectAtOrBefore _ q.items bound _ 0))
  refine ⟨_, rfl, (perm_insertionSort _ _).nodup_iff.mpr distinct, pairwise_insertionSort _ _, ?_⟩
  simpa using mem

variable [DecidableEq K] (swaps : Swaps (Entry.rank : Entry K V → Int ×ₗ Nat))

theorem Holds.entries_upsert (holds : Holds q m) (key : K) (priority : Int) (value : V) :
    ∃ seq, (m.apply (.upsert key priority value)).entries =
      update m.entries key (some ⟨key, priority, value, seq⟩) := by
  cases stored : m.entries key with
  | none => exact ⟨m.next, by simp only [Ledger.apply, stored]⟩
  | some item =>
    obtain ⟨-, rfl⟩ := (holds.mem key item).mp stored
    exact ⟨item.seq, by simp only [Ledger.apply, stored]⟩

theorem Holds.upsert (holds : Holds q m) (key : K) (priority : Int) (value : V) :
    Holds (q.upsert swaps key priority value) (m.apply (.upsert key priority value)) := by
  have mem := holds.mem
  unfold IndexedQueue.upsert Ledger.apply
  cases found : q.byKey key with
  | none =>
    have absent := holds.sound.inPlace.byKey_eq_none_iff.mp found
    have fresh : m.entries key = none := Option.eq_none_iff_forall_ne_some.mpr fun item stored =>
      absent item ((mem key item).mp stored).1 ((mem key item).mp stored).2
    obtain ⟨sound, perm⟩ := holds.sound.push swaps ⟨key, priority, value, q.next⟩ found
    simp only [fresh, Option.isSome_none]
    refine ⟨sound, congrArg _ holds.next, fun k item => ?_⟩
    have := mem k item
    simp only [Bool.false_eq_true, if_false, perm.mem_iff, update_apply, ← holds.next]
    grind
  | some i =>
    obtain ⟨item, place, rfl⟩ := Option.map_eq_some_iff.mp ((holds.sound.inPlace key i).mp found)
    have stored := (mem item.key item).mpr ⟨mem_of_getElem? place, rfl⟩
    obtain ⟨sound, perm⟩ := holds.sound.alter swaps item.key
      (fun item => { item with priority, value }) fun _ same => same
    simp only [stored, Option.isSome_some, if_true]
    have unique (other : Entry K V) (member : other ∈ q.items) (same : other.key = item.key) :
        other = item :=
      Option.some.inj (((mem _ other).mpr ⟨member, same⟩).symm.trans stored)
    refine ⟨sound, holds.next, fun k other => ?_⟩
    have := mem k other
    simp only [perm.mem_iff, mem_map, update_apply]
    grind

theorem Holds.remove (holds : Holds q m) (key : K) :
    Holds (q.remove swaps key) (m.apply (.remove key)) := by
  obtain ⟨sound, perm⟩ := holds.sound.remove swaps key
  refine ⟨sound, holds.next, fun k item => ?_⟩
  have := holds.mem k item
  simp only [IndexedQueue.remove, Ledger.apply, perm.mem_iff, mem_filter, update_apply]
  grind

theorem holds_run (calls : List (QueueCall K V)) :
    Holds (run swaps calls) (calls.foldl Ledger.apply {}) := by
  refine List.foldl_rel holds_empty fun call _ q m holds => ?_
  cases call with
  | upsert key priority value => exact holds.upsert swaps key priority value
  | remove key => exact holds.remove swaps key

/-- Whatever is inserted and removed, the queue is the finite map: every index is the entry's
place, and a query lists the values due, each once, by priority and then by insertion. -/
theorem queue_is_finite_map (calls : List (QueueCall K V)) :
    let q := run swaps calls
    let m := calls.foldl Ledger.apply {}
    (∀ key item, m.entries key = some item ↔ item ∈ q.items ∧ item.key = key) ∧
    (∀ key i, q.byKey key = some i ↔ q.items[i]?.map Entry.key = some key) ∧
    ∀ priority, ∃ due : List (Entry K V),
      q.valuesAtOrBefore priority = due.map Entry.value ∧ due.Nodup ∧
      due.Pairwise (fun a b => a.rank ≤ b.rank) ∧
      ∀ item, item ∈ due ↔ m.entries item.key = some item ∧ item.priority ≤ priority := by
  have holds := holds_run swaps calls
  refine ⟨holds.mem, holds.sound.inPlace, fun priority => ?_⟩
  obtain ⟨due, values, distinct, sorted, mem⟩ := valuesAtOrBefore_spec holds.sound priority
  refine ⟨due, values, distinct, sorted, fun item => ?_⟩
  rw [mem, holds.mem, and_iff_left rfl]

/-- The entry inserted first comes to the root when it is inserted again, and another one goes. -/
def reordered : List (QueueCall String Nat) :=
  [.upsert "a" 5 0, .upsert "b" 3 1, .upsert "c" 4 2, .upsert "a" 1 3, .remove "b"]

theorem queue_is_finite_map_reordered :
    let q := run (.sifting Entry.rank) reordered
    q.valuesAtOrBefore 4 = [3, 2] ∧ q.byKey "b" = none ∧
      ∀ key i, q.byKey key = some i ↔ q.items[i]?.map Entry.key = some key :=
  ⟨by decide, by decide, (queue_is_finite_map (.sifting Entry.rank) reordered).2.1⟩

/-- The queue shows the entry that is first by priority and then by insertion. -/
theorem peek_first (calls : List (QueueCall K V)) :
    let m := calls.foldl Ledger.apply {}
    match (run swaps calls).peek with
    | none => ∀ key, m.entries key = none
    | some (key, priority, value) => ∃ seq, m.entries key = some ⟨key, priority, value, seq⟩ ∧
        ∀ other item, m.entries other = some item → toLex (priority, seq) ≤ item.rank := by
  have holds := holds_run swaps calls
  intro m
  unfold peek
  cases first : (run swaps calls).items[0]? with
  | none =>
    refine fun key => Option.eq_none_iff_forall_ne_some.mpr fun item stored => ?_
    have member := ((holds.mem key item).mp stored).1
    simp_all
  | some root =>
    refine ⟨root.seq, (holds.mem _ root).mpr ⟨mem_of_getElem? first, rfl⟩,
      fun other item stored => ?_⟩
    obtain ⟨i, place⟩ := mem_iff_getElem?.mp ((holds.mem other item).mp stored).1
    show root.rank ≤ item.rank
    exact rank_le_of_below holds.sound.ordered first place (below_root i)

theorem peek_first_reordered : ∃ seq,
    (run (.sifting Entry.rank) reordered).peek = some ("a", 1, 3) ∧
      ∀ other item, (reordered.foldl Ledger.apply {}).entries other = some item →
        toLex (1, seq) ≤ item.rank := by
  obtain ⟨seq, -, first⟩ := peek_first (.sifting Entry.rank) reordered
  exact ⟨seq, by decide, first⟩

end IndexedQueue

end SkyTree.Will
