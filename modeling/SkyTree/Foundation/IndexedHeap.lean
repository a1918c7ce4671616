import Mathlib.Tactic

/-!
# Indexed heaps

An implicit binary heap in a list, with a map that holds the place of each key's item. A heap
package moves items by swaps alone and enters by its contract; `Swaps.sifting` is the package that
sifts up and down. A search for the items up to a bound descends from the root and prunes a
subtree at the first item above the bound.
-/

namespace SkyTree.Foundation.IndexedHeap

open List Function

universe u v w

variable {α : Type u} {β : Type v} [LinearOrder β]

def exchange (items : List α) (places : Nat × Nat) : List α :=
  match items[places.1]?, items[places.2]? with
  | some a, some b => (items.set places.1 b).set places.2 a
  | _, _ => items

/-- Where both places are taken, the first item does not come after the second. -/
def NotAfter (rank : α → β) (items : List α) (i j : Nat) : Prop :=
  ∀ a b, items[i]? = some a → items[j]? = some b → rank a ≤ rank b

def HeapOrdered (rank : α → β) (items : List α) : Prop :=
  ∀ i, NotAfter rank items (i / 2) (i + 1)

/-- The swaps a heap package makes, and what it promises of them. -/
structure Swaps (rank : α → β) where
  push : List α → List (Nat × Nat)
  fix : List α → Nat → List (Nat × Nat)
  remove : List α → Nat → List (Nat × Nat)
  push_ordered : ∀ items item, HeapOrdered rank items →
    HeapOrdered rank ((push (items ++ [item])).foldl exchange (items ++ [item]))
  fix_ordered : ∀ items i item, HeapOrdered rank items →
    HeapOrdered rank ((fix (items.set i item) i).foldl exchange (items.set i item))
  /-- The removed item is last when it is popped. -/
  remove_ordered : ∀ items i item, HeapOrdered rank items → items[i]? = some item →
    ∃ rest, (remove items i).foldl exchange items = rest ++ [item] ∧ HeapOrdered rank rest

theorem exchange_perm (items : List α) (places : Nat × Nat) :
    (exchange items places).Perm items := by
  unfold exchange
  split
  · next first second =>
    obtain ⟨_, rfl⟩ := List.getElem?_eq_some_iff.mp first
    obtain ⟨_, rfl⟩ := List.getElem?_eq_some_iff.mp second
    exact List.set_set_perm _ _
  · rfl

/-! ### Sifting -/

section Sifting

variable (rank : α → β)

def less (items : List α) (i j : Nat) : Bool :=
  match items[i]?, items[j]? with
  | some a, some b => rank a < rank b
  | _, _ => false

/-- `up` of `container/heap`; as many rounds as the place has levels above it suffice. -/
def up : Nat → List α → Nat → List (Nat × Nat)
  | 0, _, _ => []
  | fuel + 1, items, j =>
    let i := (j - 1) / 2
    if i = j ∨ !less rank items j i then []
    else (i, j) :: up fuel (exchange items (i, j)) i

def down : Nat → List α → Nat → List (Nat × Nat)
  | 0, _, _ => []
  | fuel + 1, items, i =>
    let left := 2 * i + 1
    if items.length ≤ left then []
    else
      let j := if less rank items (left + 1) left then left + 1 else left
      if !less rank items j i then []
      else (i, j) :: down fuel (exchange items (i, j)) j

def fix (items : List α) (i : Nat) : List (Nat × Nat) :=
  match down rank items.length items i with
  | [] => up rank i items i
  | moves => moves

def remove (items : List α) (i : Nat) : List (Nat × Nat) :=
  let n := items.length - 1
  if n = i then [] else (i, n) :: fix rank (exchange items (i, n)).dropLast i

variable {rank} {items : List α} {fuel i j : Nat}

@[simp] theorem length_exchange (places : Nat × Nat) :
    (exchange items places).length = items.length := (exchange_perm items places).length_eq

theorem getElem?_exchange (hi : i < items.length) (hj : j < items.length) (k : Nat) :
    (exchange items (i, j))[k]? =
      if k = j then items[i]? else if k = i then items[j]? else items[k]? := by
  unfold exchange
  grind

theorem less_iff : less rank items i j = true ↔
    ∃ a b, items[i]? = some a ∧ items[j]? = some b ∧ rank a < rank b := by
  unfold less
  split <;> grind

theorem lt_of_less (before : less rank items i j = true) : i < items.length ∧ j < items.length := by
  obtain ⟨a, b, first, second, -⟩ := less_iff.mp before
  exact ⟨(List.getElem?_eq_some_iff.mp first).1, (List.getElem?_eq_some_iff.mp second).1⟩

theorem notAfter_of_not_less (before : less rank items j i = false) : NotAfter rank items i j := by
  intro a b first second
  by_contra after
  rw [less_iff.mpr ⟨b, a, second, first, not_le.mp after⟩] at before
  cases before

/-- Every pair without the hole is in order, and so are its parent and its children. -/
structure Hole (rank : α → β) (items : List α) (hole : Nat) : Prop where
  apart : ∀ i, i + 1 ≠ hole → i / 2 ≠ hole → NotAfter rank items (i / 2) (i + 1)
  across : 0 < hole → ∀ i, i / 2 = hole → NotAfter rank items ((hole - 1) / 2) (i + 1)

theorem Hole.up (order : Hole rank items j)
    (below : ∀ i, i / 2 = j → NotAfter rank items j (i + 1)) (enough : j ≤ fuel) :
    HeapOrdered rank ((up rank fuel items j).foldl exchange items) := by
  induction fuel generalizing items j with
  | zero =>
    obtain rfl : j = 0 := by omega
    intro i
    have := order.apart i (by omega)
    grind [IndexedHeap.up]
  | succ fuel ih =>
    rw [IndexedHeap.up]
    split
    · next stops =>
      intro i
      have := order.apart i
      have := below i
      have := @notAfter_of_not_less _ _ _ rank items ((j - 1) / 2) j
      grind
    · next moves =>
      obtain ⟨inner, before⟩ : (j - 1) / 2 ≠ j ∧ less rank items j ((j - 1) / 2) = true := by
        simpa using moves
      obtain ⟨own, parent, atOwn, atParent, lower⟩ := less_iff.mp before
      obtain ⟨hj, hi⟩ := lt_of_less before
      refine ih ⟨fun i other notBelow => ?_, fun inner i isChild => ?_⟩
        (fun i isChild => ?_) (by omega) <;> intro a b first second <;>
        rw [getElem?_exchange hi hj] at first second <;> have := order.apart i
      · have := fun inner => order.across inner i
        grind [NotAfter]
      · have := order.apart ((j - 1) / 2 - 1)
        grind [NotAfter]
      · grind [NotAfter]

theorem Hole.down_step {child : Nat} (order : Hole rank items (child / 2))
    (smaller : ∀ i, i / 2 = child / 2 → NotAfter rank items (child + 1) (i + 1))
    (before : less rank items (child + 1) (child / 2) = true) :
    Hole rank (exchange items (child / 2, child + 1)) (child + 1) ∧
      NotAfter rank (exchange items (child / 2, child + 1)) (child / 2) (child + 1) := by
  obtain ⟨least, own, atChild, atOwn, lower⟩ := less_iff.mp before
  obtain ⟨hj, hi⟩ := lt_of_less before
  refine ⟨⟨fun i other notBelow => ?_, fun _ i isBelow => ?_⟩, ?_⟩ <;> intro a b first second <;>
    rw [getElem?_exchange hi hj] at first second
  · have := order.apart i
    have := fun inner => order.across inner child rfl
    have := smaller i
    grind [NotAfter]
  · have := order.apart i
    grind [NotAfter]
  · grind

variable (rank) in
theorem smaller_child (inside : 2 * i + 1 < items.length) :
    ∃ child, child / 2 = i ∧ child + 1 < items.length ∧
      (if less rank items (2 * i + 1 + 1) (2 * i + 1) then 2 * i + 1 + 1 else 2 * i + 1) =
        child + 1 ∧
      ∀ k, k / 2 = i → NotAfter rank items (child + 1) (k + 1) := by
  have either (k : Nat) (isChild : k / 2 = i) : k = 2 * i ∨ k = 2 * i + 1 := by omega
  split
  · next before =>
    obtain ⟨a, b, first, second, lower⟩ := less_iff.mp before
    refine ⟨2 * i + 1, by omega, (lt_of_less before).1, rfl, fun k isChild => ?_⟩
    rcases either k isChild with rfl | rfl <;> grind [NotAfter]
  · next before =>
    have := notAfter_of_not_less (Bool.eq_false_iff.mpr before)
    refine ⟨2 * i, by omega, inside, rfl, fun k isChild => ?_⟩
    rcases either k isChild with rfl | rfl <;> grind [NotAfter]

/-- Sifting down either moves nothing, and the children are in order, or leaves a heap. -/
theorem Hole.down (order : Hole rank items i) (enough : items.length ≤ fuel + i) :
    down rank fuel items i = [] ∧ (∀ k, k / 2 = i → NotAfter rank items i (k + 1)) ∨
      HeapOrdered rank ((down rank fuel items i).foldl exchange items) ∧
        down rank fuel items i ≠ [] := by
  induction fuel generalizing items i with
  | zero =>
    refine .inl ⟨rfl, fun k isChild a b first second => ?_⟩
    grind
  | succ fuel ih =>
    rw [IndexedHeap.down]
    split
    · next isLeaf =>
      refine .inl ⟨rfl, fun k isChild a b first second => ?_⟩
      grind
    · next inside =>
      obtain ⟨child, rfl, present, chosen, smaller⟩ := smaller_child rank (not_le.mp inside)
      rw [chosen]
      dsimp only
      split
      · next stops =>
        refine .inl ⟨rfl, fun k isChild a b first second => ?_⟩
        have least := getElem?_eq_getElem present
        have above := notAfter_of_not_less (by simpa using stops)
        exact (above _ _ first least).trans (smaller k isChild _ _ least second)
      · next before =>
        have before : less rank items (child + 1) (child / 2) = true := by simpa using before
        obtain ⟨next, inOrder⟩ := order.down_step smaller before
        refine .inr ⟨?_, nofun⟩
        rw [foldl_cons]
        rcases ih next (by simp; omega) with ⟨stays, below⟩ | ⟨ordered, -⟩
        · rw [stays]
          intro k
          have := next.apart k
          have := below k
          grind
        · exact ordered

theorem Hole.fix (order : Hole rank items i) :
    HeapOrdered rank ((fix rank items i).foldl exchange items) := by
  unfold IndexedHeap.fix
  rcases order.down (Nat.le_add_right _ _) with ⟨stays, below⟩ | ⟨ordered, moves⟩
  · rw [stays]
    exact order.up below le_rfl
  · split
    · contradiction
    · exact ordered

def Inside (n : Nat) (swaps : List (Nat × Nat)) : Prop :=
  ∀ places ∈ swaps, places.1 < n ∧ places.2 < n

theorem inside_up : Inside items.length (up rank fuel items j) := by
  induction fuel generalizing items j with
  | zero => exact nofun
  | succ fuel ih =>
    rw [up]
    split
    · exact nofun
    · next moves =>
      have before := lt_of_less (by simpa using (not_or.mp moves).2)
      refine forall_mem_cons.mpr ⟨before.symm, fun places member => ?_⟩
      simpa using ih places member

theorem inside_down : Inside items.length (down rank fuel items i) := by
  induction fuel generalizing items i with
  | zero => exact nofun
  | succ fuel ih =>
    rw [down]
    split
    · exact nofun
    · extract_lets j
      split
      · exact nofun
      · next moves =>
        have before := lt_of_less (by simpa using moves)
        refine forall_mem_cons.mpr ⟨before.symm, fun places member => ?_⟩
        simpa using ih places member

theorem inside_fix : Inside items.length (fix rank items i) := by
  unfold fix
  split
  · exact inside_up
  · exact inside_down

theorem foldl_exchange_append {swaps : List (Nat × Nat)} (rest : List α)
    (inside : Inside items.length swaps) :
    swaps.foldl exchange (items ++ rest) = swaps.foldl exchange items ++ rest := by
  induction swaps generalizing items with
  | nil => rfl
  | cons places swaps ih =>
    obtain ⟨first, later⟩ := forall_mem_cons.mp inside
    have moved : exchange (items ++ rest) places = exchange items places ++ rest := by
      unfold exchange
      grind
    rw [foldl_cons, moved, ih (by rwa [length_exchange]), foldl_cons]

theorem hole_set (ordered : HeapOrdered rank items) (item : α) :
    Hole rank (items.set i item) i := by
  refine ⟨fun k other notBelow => ?_, fun inner k isChild => ?_⟩ <;> intro a b first second <;>
    have := ordered k
  · grind [NotAfter]
  · have := ordered (i - 1)
    grind [NotAfter]

theorem remove_last (ordered : HeapOrdered rank items) {item : α} (found : items[i]? = some item) :
    ∃ rest, (remove rank items i).foldl exchange items = rest ++ [item] ∧
      HeapOrdered rank rest := by
  obtain ⟨inside, rfl⟩ := List.getElem?_eq_some_iff.mp found
  have front : HeapOrdered rank items.dropLast := fun k a b first second =>
    ordered k a b (by grind) (by grind)
  unfold remove
  by_cases last : items.length - 1 = i
  · subst last
    refine ⟨items.dropLast, ?_, front⟩
    have := dropLast_append_getLast (ne_nil_of_length_pos (by omega) : items ≠ [])
    grind
  · have moved : exchange items (i, items.length - 1) =
        items.dropLast.set i (items.getLast (ne_nil_of_length_pos (by omega))) ++ [items[i]] := by
      unfold exchange
      refine List.ext_getElem? fun k => ?_
      grind
    dsimp only
    rw [if_neg last, moved, dropLast_concat, foldl_cons, moved,
      foldl_exchange_append _ inside_fix]
    exact ⟨_, rfl, (hole_set front _).fix⟩

variable (rank) in
def Swaps.sifting : Swaps rank where
  push items := up rank (items.length - 1) items (items.length - 1)
  fix := IndexedHeap.fix rank
  remove := IndexedHeap.remove rank
  push_ordered items item ordered := by
    rw [length_append, length_singleton, Nat.add_sub_cancel]
    refine Hole.up ⟨fun i other notBelow a b first second => ?_,
      fun inner i isChild a b first second => ?_⟩ (fun i isChild a b first second => ?_) le_rfl
    · have := ordered i
      grind [NotAfter]
    · grind
    · grind
  fix_ordered _ _ item ordered := (hole_set ordered item).fix
  remove_ordered _ _ _ ordered := remove_last ordered

end Sifting

/-! ### The search -/

/-- The places of the items up to a bound, from a subtree pruned at the first item above it. -/
def collectAtOrBefore (time : α → Int) (items : List α) (bound : Int) : Nat → Nat → List Nat
  | 0, _ => []
  | depth + 1, index =>
    match items[index]? with
    | none => []
    | some item =>
      if bound < time item then []
      else index :: (collectAtOrBefore time items bound depth (2 * index + 1) ++
        collectAtOrBefore time items bound depth (2 * index + 2))

def Below (index i : Nat) : Prop := ∃ levels, (i + 1) / 2 ^ levels = index + 1

section Collect

variable {rank : α → β} {time : α → Int} {items : List α} {bound : Int} {depth index i : Nat}

theorem below_child {child : Nat} (isChild : (child + 1) / 2 = index + 1) (below : Below child i) :
    Below index i := by
  obtain ⟨levels, path⟩ := below
  refine ⟨levels + 1, ?_⟩
  rw [Nat.pow_succ, ← Nat.div_div_eq_div_mul, path, isChild]

theorem mem_collect (member : i ∈ collectAtOrBefore time items bound depth index) :
    (∃ item, items[i]? = some item ∧ time item ≤ bound) ∧ Below index i := by
  induction depth generalizing index with
  | zero => cases member
  | succ depth ih =>
    rw [collectAtOrBefore] at member
    split at member
    · cases member
    · next item found =>
      split at member
      · cases member
      · next due =>
        rcases mem_cons.mp member with rfl | deeper
        · exact ⟨⟨item, found, not_lt.mp due⟩, 0, by simp⟩
        · rcases mem_append.mp deeper with left | right
          · exact (ih left).imp_right (below_child (by omega))
          · exact (ih right).imp_right (below_child (by omega))

theorem le_of_below (below : Below index i) : index ≤ i := by
  obtain ⟨levels, path⟩ := below
  have := Nat.div_le_self (i + 1) (2 ^ levels)
  omega

theorem not_below_both (left : Below (2 * index + 1) i) : ¬ Below (2 * index + 2) i := by
  rintro ⟨b, right⟩
  obtain ⟨a, left⟩ := left
  have halves {low high : Nat} (deeper : low < high) :
      (i + 1) / 2 ^ high ≤ (i + 1) / 2 ^ low / 2 := by
    rw [Nat.div_div_eq_div_mul, ← Nat.pow_succ]
    exact Nat.div_le_div_left (Nat.pow_le_pow_right (by decide) deeper) (Nat.pow_pos (by decide))
  rcases Nat.lt_trichotomy a b with lower | rfl | higher
  · have := halves lower
    omega
  · omega
  · have := halves higher
    omega

theorem below_root (i : Nat) : Below 0 i := by
  induction i using Nat.strong_induction_on with
  | _ i ih =>
    rcases Nat.eq_zero_or_pos i with rfl | inner
    · exact ⟨0, rfl⟩
    · obtain ⟨levels, path⟩ := ih ((i - 1) / 2) (by omega)
      refine ⟨levels + 1, ?_⟩
      rw [Nat.pow_succ, Nat.mul_comm, ← Nat.div_div_eq_div_mul, ← path]
      congr 1
      omega

theorem nodup_collect : (collectAtOrBefore time items bound depth index).Nodup := by
  induction depth generalizing index with
  | zero => exact nodup_nil
  | succ depth ih =>
    rw [collectAtOrBefore]
    split
    · exact nodup_nil
    · split
      · exact nodup_nil
      · refine nodup_cons.mpr ⟨fun deeper => ?_, ih.append ih
          fun i left right => not_below_both (mem_collect left).2 (mem_collect right).2⟩
        rcases mem_append.mp deeper with left | right
        · have := le_of_below (mem_collect left).2
          omega
        · have := le_of_below (mem_collect right).2
          omega

theorem rank_le_of_below {top item : α} (ordered : HeapOrdered rank items)
    (atTop : items[index]? = some top) (found : items[i]? = some item) (below : Below index i) :
    rank top ≤ rank item := by
  obtain ⟨levels, path⟩ := below
  induction levels generalizing i item with
  | zero =>
    obtain rfl : i = index := by simpa using path
    rw [Option.some.inj (atTop.symm.trans found)]
  | succ levels ih =>
    -- climb from the item to its parent
    rw [Nat.pow_succ, Nat.mul_comm, ← Nat.div_div_eq_div_mul] at path
    cases i with
    | zero => simp at path
    | succ i =>
      have inside := (List.getElem?_eq_some_iff.mp found).1
      have parent : items[i / 2]? = some items[i / 2] := getElem?_eq_getElem (by omega)
      rw [show (i + 1 + 1) / 2 = i / 2 + 1 by omega] at path
      exact (ih parent path).trans (ordered i _ _ parent found)

variable (monotone : ∀ a b, rank a ≤ rank b → time a ≤ time b)
include monotone

theorem collect_complete {item : α} (ordered : HeapOrdered rank items)
    (enough : items.length ≤ depth + index) (found : items[i]? = some item)
    (due : time item ≤ bound) (below : Below index i) :
    i ∈ collectAtOrBefore time items bound depth index := by
  have inside := (List.getElem?_eq_some_iff.mp found).1
  have above := le_of_below below
  induction depth generalizing index with
  | zero => omega
  | succ depth ih =>
    have top : items[index]? = some items[index] := getElem?_eq_getElem (by omega)
    have reached := (monotone _ _ (rank_le_of_below ordered top found below)).trans due
    rw [collectAtOrBefore, top]
    simp only [if_neg reached.not_gt]
    obtain ⟨levels, path⟩ := below
    cases levels with
    | zero =>
      obtain rfl : i = index := by simpa using path
      exact mem_cons_self
    | succ levels =>
      rw [Nat.pow_succ, ← Nat.div_div_eq_div_mul] at path
      refine .tail _ (mem_append.mpr ?_)
      have child : (i + 1) / 2 ^ levels = 2 * index + 2 ∨ (i + 1) / 2 ^ levels = 2 * index + 3 := by
        omega
      rcases child with left | right
      · exact .inl (ih (by omega) ⟨levels, left⟩ (le_of_below ⟨levels, left⟩))
      · exact .inr (ih (by omega) ⟨levels, right⟩ (le_of_below ⟨levels, right⟩))

/-- In whatever order the places are visited, each due item is found once. -/
theorem collect_spec (ordered : HeapOrdered rank items) (distinct : items.Nodup)
    {places : List Nat}
    (visited : places.Perm (collectAtOrBefore time items bound items.length 0)) :
    (places.filterMap (items[·]?)).Nodup ∧
      ∀ item, item ∈ places.filterMap (items[·]?) ↔ item ∈ items ∧ time item ≤ bound := by
  constructor
  · refine (visited.nodup_iff.mpr nodup_collect).filterMap fun i j item first second => ?_
    have inside := (List.getElem?_eq_some_iff.mp first).1
    exact (List.getElem?_inj inside distinct).mp (first.trans second.symm)
  · intro item
    rw [mem_filterMap]
    constructor
    · rintro ⟨i, member, found⟩
      obtain ⟨⟨other, same, due⟩, -⟩ := mem_collect (visited.mem_iff.mp member)
      cases found.symm.trans same
      exact ⟨mem_of_getElem? found, due⟩
    · rintro ⟨member, due⟩
      obtain ⟨i, found⟩ := mem_iff_getElem?.mp member
      exact ⟨i, visited.mem_iff.mpr
        (collect_complete monotone ordered le_rfl found due (below_root i)), found⟩

end Collect

/-! ### Heaps with a map from keys -/

/-- The heap array and, for each key, the index field of the item that the map holds. -/
structure Heap {K : Type w} (key : α → K) where
  items : List α := []
  byKey : K → Option Nat := fun _ => none

namespace Heap

variable {K : Type w} {key : α → K} {rank : α → β}

def InPlace (h : Heap key) : Prop :=
  ∀ k i, h.byKey k = some i ↔ h.items[i]?.map key = some k

structure Sound (rank : α → β) (h : Heap key) : Prop where
  inPlace : h.InPlace
  ordered : HeapOrdered rank h.items

variable {h : Heap key}

theorem sound_empty : Sound rank ({} : Heap key) := ⟨fun _ _ => by simp, nofun⟩

theorem InPlace.distinct (inPlace : h.InPlace) : (h.items.map key).Nodup := by
  refine List.nodup_iff_getElem?_ne_getElem?.mpr fun i j less inside same => ?_
  have := inPlace (h.items.map key)[j]
  grind

theorem InPlace.byKey_eq_none_iff (inPlace : h.InPlace) {k : K} :
    h.byKey k = none ↔ ∀ item ∈ h.items, key item ≠ k := by
  constructor
  · rintro missing item member rfl
    obtain ⟨i, found⟩ := mem_iff_getElem?.mp member
    have := (inPlace (key item) i).mpr (by rw [found]; rfl)
    rw [missing] at this
    cases this
  · intro absent
    refine Option.eq_none_iff_forall_ne_some.mpr fun i found => ?_
    obtain ⟨item, place, same⟩ := Option.map_eq_some_iff.mp ((inPlace k i).mp found)
    exact absent item (mem_of_getElem? place) same

variable [DecidableEq K]

def swap (h : Heap key) (places : Nat × Nat) : Heap key where
  items := exchange h.items places
  byKey :=
    match h.items[places.1]?, h.items[places.2]? with
    | some a, some b => update (update h.byKey (key b) (some places.1)) (key a) (some places.2)
    | _, _ => h.byKey

variable (swaps : Swaps rank) (h)

def push (item : α) : Heap key :=
  let items := h.items ++ [item]
  (swaps.push items).foldl swap { items, byKey := update h.byKey (key item) (some h.items.length) }

/-- The item of a key is changed where it is and the heap is fixed at its index. -/
def alter (k : K) (change : α → α) : Heap key :=
  match h.byKey k with
  | some i =>
    let items := h.items.map fun item => if key item = k then change item else item
    (swaps.fix items i).foldl swap { h with items }
  | none => h

def remove (k : K) : Heap key :=
  match h.byKey k with
  | some i =>
    let moved := (swaps.remove h.items i).foldl swap h
    { items := moved.items.dropLast, byKey := update moved.byKey k none }
  | none => h

variable {h}

theorem InPlace.swap (inPlace : h.InPlace) (places : Nat × Nat) : (h.swap places).InPlace := by
  intro k i
  have := inPlace k
  unfold Heap.swap exchange
  cases first : h.items[places.1]? <;> cases second : h.items[places.2]? <;> grind

theorem InPlace.foldl_swap (inPlace : h.InPlace) (moves : List (Nat × Nat)) :
    (moves.foldl Heap.swap h).InPlace ∧
      (moves.foldl Heap.swap h).items = moves.foldl exchange h.items ∧
      (moves.foldl exchange h.items).Perm h.items := by
  induction moves generalizing h with
  | nil => exact ⟨inPlace, rfl, .refl _⟩
  | cons places moves ih =>
    obtain ⟨kept, same, perm⟩ := ih (inPlace.swap places)
    exact ⟨kept, same, perm.trans (exchange_perm _ _)⟩

theorem InPlace.sound (inPlace : h.InPlace) {moves : List (Nat × Nat)}
    (ordered : HeapOrdered rank (moves.foldl exchange h.items)) :
    Sound rank (moves.foldl Heap.swap h) ∧ (moves.foldl Heap.swap h).items.Perm h.items := by
  obtain ⟨kept, same, perm⟩ := inPlace.foldl_swap moves
  rw [← same] at ordered perm
  exact ⟨⟨kept, ordered⟩, perm⟩

variable (sound : h.Sound rank)
include sound

theorem Sound.push (item : α) (fresh : h.byKey (key item) = none) :
    Sound rank (h.push swaps item) ∧ (h.push swaps item).items.Perm (item :: h.items) := by
  have inPlace : InPlace (⟨h.items ++ [item], update h.byKey (key item) (some h.items.length)⟩ :
      Heap key) := by
    intro k i
    have := sound.inPlace k i
    simp only [update_apply, List.getElem?_append, List.getElem?_singleton]
    grind
  obtain ⟨kept, perm⟩ := inPlace.sound (swaps.push_ordered _ item sound.ordered)
  exact ⟨kept, perm.trans perm_append_comm⟩

theorem Sound.alter (k : K) (change : α → α)
    (keeps : ∀ item, key item = k → key (change item) = k) :
    Sound rank (h.alter swaps k change) ∧ (h.alter swaps k change).items.Perm
      (h.items.map fun item => if key item = k then change item else item) := by
  unfold Heap.alter
  split
  · next i found =>
    obtain ⟨item, place, rfl⟩ := Option.map_eq_some_iff.mp ((sound.inPlace k i).mp found)
    have changed : (h.items.map fun other => if key other = key item then change other else other) =
        h.items.set i (change item) := by
      refine List.ext_getElem? fun k => ?_
      have := sound.inPlace (key item)
      grind
    rw [changed]
    have inPlace : InPlace ({ h with items := h.items.set i (change item) } : Heap key) := by
      intro k j
      have := sound.inPlace k
      have := keeps item rfl
      grind
    exact inPlace.sound (swaps.fix_ordered _ _ _ sound.ordered)
  · next missing =>
    have absent := sound.inPlace.byKey_eq_none_iff.mp missing
    rw [map_congr_left fun item member => if_neg (absent item member), map_id']
    exact ⟨sound, .refl _⟩

theorem Sound.remove (k : K) :
    Sound rank (h.remove swaps k) ∧
      (h.remove swaps k).items.Perm (h.items.filter fun item => key item ≠ k) := by
  unfold Heap.remove
  split
  · next i found =>
    obtain ⟨item, place, rfl⟩ := Option.map_eq_some_iff.mp ((sound.inPlace k i).mp found)
    obtain ⟨rest, last, ordered⟩ := swaps.remove_ordered _ _ _ sound.ordered place
    obtain ⟨inPlace, same, perm⟩ := sound.inPlace.foldl_swap (swaps.remove h.items i)
    rw [last] at same perm
    dsimp only
    generalize (swaps.remove h.items i).foldl Heap.swap h = moved at inPlace same ⊢
    have distinct := inPlace.distinct
    simp only [same, map_append, map_cons, map_nil] at distinct
    refine ⟨⟨fun k j => ?_, by simpa [same] using ordered⟩, ?_⟩
    · have := inPlace k j
      simp only [update_apply, same, dropLast_concat] at this ⊢
      grind
    · have others : rest.filter (fun other => key other ≠ key item) = rest :=
        filter_eq_self.mpr fun other member => by grind
      have perm := perm.filter fun other => key other ≠ key item
      rw [filter_append, others] at perm
      simpa [same] using perm
  · next missing =>
    have absent := sound.inPlace.byKey_eq_none_iff.mp missing
    refine ⟨sound, ?_⟩
    rw [filter_eq_self.mpr (by simpa using absent)]

end Heap

end SkyTree.Foundation.IndexedHeap
