import SkyTree.Foundation.KeyedTable

/-!
# Tables that group values by a key

A loop that appends values to the group of their key loses the order in which keys
first appeared but keeps every value with its key. `pairs` reads the values back,
so that a nest of such loops is described by the values each of them appends.
-/

namespace SkyTree.Foundation

open List

universe u v w x

/-- A loop that keeps the first value of every key keeps every key once. -/
theorem foldl_keep_first {X : Type u} {K : Type v} [DecidableEq K] (key : X → K) (found : List X)
    {kept : List X} (hk : (kept.map key).Nodup) :
    let result := found.foldl (fun kept value =>
      if kept.any fun other => key other = key value then kept else kept ++ [value]) kept
    (result.map key).Nodup ∧ (∀ value ∈ result, value ∈ kept ∨ value ∈ found) ∧
      ∀ value, value ∈ kept ∨ value ∈ found → key value ∈ result.map key := by
  induction found generalizing kept with
  | nil =>
    refine ⟨hk, fun value hm => .inl hm, fun value hm => mem_map_of_mem ?_⟩
    simpa using hm
  | cons value rest ih =>
    rw [foldl_cons]
    by_cases ha : (kept.any fun other => key other = key value) = true
    · rw [if_pos ha]
      obtain ⟨hn, hf, hc⟩ := ih hk
      refine ⟨hn, fun other hm => (hf other hm).imp_right (mem_cons_of_mem _), ?_⟩
      rintro other (hm | hm)
      · exact hc other (.inl hm)
      · rcases mem_cons.mp hm with rfl | hm
        · obtain ⟨first, hi, he⟩ := any_eq_true.mp ha
          exact of_decide_eq_true he ▸ hc first (.inl hi)
        · exact hc other (.inr hm)
    · rw [if_neg ha]
      have hs : ((kept ++ [value]).map key).Nodup := by
        simp only [any_eq_true, decide_eq_true_eq, not_exists, not_and] at ha
        rw [map_append, map_singleton, nodup_append]
        refine ⟨hk, nodup_singleton _, fun k hm l hl he => ?_⟩
        obtain ⟨other, hi, rfl⟩ := mem_map.mp hm
        exact ha other hi (he.trans (mem_singleton.mp hl))
      obtain ⟨hn, hf, hc⟩ := ih hs
      refine ⟨hn, fun other hm => ?_, fun other hm => hc other ?_⟩
      · simpa [or_assoc] using hf other hm
      · simpa [or_assoc] using hm

theorem map_filterMap_sublist {X : Type u} {Y : Type v} {L : Type w} {f : X → Option Y}
    {before : X → L} {after : Y → L} {inputs : List X}
    (hk : ∀ input ∈ inputs, ∀ output, f input = some output → after output = before input) :
    ((inputs.filterMap f).map after).Sublist (inputs.map before) := by
  induction inputs with
  | nil => exact .slnil
  | cons input rest ih =>
    have below := ih fun o hm => hk o (mem_cons_of_mem _ hm)
    cases hb : f input with
    | none => simpa [hb] using below.cons (before input)
    | some output => simpa [hb, hk input mem_cons_self output hb] using below

namespace Assoc

variable {K : Type u} {A : Type v} {V : Type w} {X : Type x} (items : A → List V)

def pairs (m : Assoc K A) : List (K × V) :=
  m.entries.flatMap fun group => (items group.2).map fun value => (group.1, value)

variable [DecidableEq K]

theorem pairs_set_perm (m : Assoc K A) {k : K} {group : A} {added : List V}
    (he : items group = (lookup m k).elim [] items ++ added) :
    (pairs items (set m k group)).Perm (pairs items m ++ added.map fun value => (k, value)) := by
  have hb : (pairs items m).Perm (pairs items (m.erase k) ++
      ((lookup m k).elim [] items).map fun value => (k, value)) := by
    refine ((m.entries_perm k).flatMap_right _).trans ?_
    rw [flatMap_append]
    refine List.Perm.append_left _ (.of_eq ?_)
    cases hf : m.get k with
    | none => simp [lookup, hf]
    | some e =>
      obtain ⟨-, rfl⟩ := KeyedTable.get_eq_some_iff.mp hf
      simp [lookup, hf]
  have ha : pairs items (set m k group) = pairs items (m.erase k) ++
      (items group).map fun value => (k, value) := by
    simp [pairs, set, KeyedTable.put]
  rw [ha, he, map_append, ← append_assoc]
  exact hb.symm.append_right _

omit [DecidableEq K] in
theorem pairs_foldl_perm {step : Assoc K A → X → Assoc K A} (added : X → List (K × V))
    (ha : ∀ m input, (pairs items (step m input)).Perm (pairs items m ++ added input))
    (inputs : List X) (m : Assoc K A) :
    (pairs items (inputs.foldl step m)).Perm (pairs items m ++ inputs.flatMap added) := by
  induction inputs generalizing m with
  | nil => simp
  | cons input rest ih =>
    rw [foldl_cons, flatMap_cons, ← append_assoc]
    exact (ih _).trans ((ha m input).append_right _)

end Assoc

end SkyTree.Foundation
