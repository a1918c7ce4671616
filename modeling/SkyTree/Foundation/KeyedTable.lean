import Mathlib.Tactic

/-!
# Tables of records keyed by one of their fields

A table is a list of records no two of which share a key. The order of the list
stands for an arbitrary iteration order; every lookup is determined by the key.
-/

namespace SkyTree.Foundation

open List

universe u v w

structure KeyedTable {K : Type u} {V : Type v} (key : V → K) where
  entries : List V
  distinct : (entries.map key).Nodup

namespace KeyedTable

variable {K : Type u} {V : Type v} {key : V → K}

instance [DecidableEq V] : DecidableEq (KeyedTable key) := fun a b =>
  decidable_of_iff (a.entries = b.entries) ⟨fun same => by cases a; cases b; congr, congrArg _⟩

instance : Membership V (KeyedTable key) := ⟨fun t v => v ∈ t.entries⟩

variable {v : V}

theorem mem_def {t : KeyedTable key} : v ∈ t ↔ v ∈ t.entries := Iff.rfl

theorem ext_entries {t u : KeyedTable key} (he : t.entries = u.entries) : t = u := by
  cases t
  cases u
  congr

def empty : KeyedTable key := ⟨[], nodup_nil⟩

instance : Inhabited (KeyedTable key) := ⟨empty⟩

@[simp] theorem not_mem_empty (v : V) : v ∉ (empty : KeyedTable key) := by
  simp [mem_def, empty]

theorem eq_empty_iff {t : KeyedTable key} : t = empty ↔ t.entries = [] := by
  constructor
  · rintro rfl
    rfl
  · intro hn
    cases t
    congr

theorem eq_of_key_eq (t : KeyedTable key) {w : V} (hv : v ∈ t) (hw : w ∈ t) (same : key v = key w) :
    v = w :=
  inj_on_of_nodup_map t.distinct hv hw same

def filter (p : V → Bool) (t : KeyedTable key) : KeyedTable key :=
  ⟨t.entries.filter p, t.distinct.sublist (filter_sublist.map key)⟩

@[simp] theorem mem_filter {p : V → Bool} {t : KeyedTable key} :
    v ∈ t.filter p ↔ v ∈ t ∧ p v = true := by
  simp [mem_def, filter]

/-- Every entry of the second table comes from one of the first by `R`. -/
def Follows (R : V → V → Prop) (before after : KeyedTable key) : Prop :=
  ∀ v ∈ after, ∃ old ∈ before, R old v

section Follows

variable {R S : V → V → Prop} {before middle after : KeyedTable key}

theorem Follows.of_subset (hr : ∀ v, R v v) (subset : ∀ v ∈ after, v ∈ before) :
    Follows R before after :=
  fun v hs => ⟨v, subset v hs, hr v⟩

theorem Follows.trans (ht : ∀ {u v w}, R u v → R v w → R u w)
    (first : Follows R before middle) (snd : Follows R middle after) :
    Follows R before after := by
  intro v hs
  obtain ⟨kept, hf, hl⟩ := snd v hs
  obtain ⟨old, hm, he⟩ := first kept hf
  exact ⟨old, hm, ht he hl⟩

theorem Follows.mono (hw : ∀ {v w}, R v w → S v w) (hf : Follows R before after) :
    Follows S before after := by
  intro v hs
  obtain ⟨old, hm, hr⟩ := hf v hs
  exact ⟨old, hm, hw hr⟩

end Follows

variable [DecidableEq K]

def get (t : KeyedTable key) (k : K) : Option V :=
  t.entries.find? fun v => decide (key v = k)

variable {k : K}

theorem get_eq_some_iff {t : KeyedTable key} : t.get k = some v ↔ v ∈ t ∧ key v = k := by
  constructor
  · intro found
    exact ⟨mem_of_find?_eq_some found, by simpa using find?_some found⟩
  · rintro ⟨member, rfl⟩
    cases found : t.get (key v) with
    | none =>
      have missing := find?_eq_none.mp found v member
      simp at missing
    | some w =>
      have same : key w = key v := by simpa using find?_some found
      rw [t.eq_of_key_eq (mem_of_find?_eq_some found) member same]

theorem get_eq_none_iff {t : KeyedTable key} : t.get k = none ↔ ∀ v ∈ t, key v ≠ k := by
  simp [get, mem_def]

/-- A loop in which only the record of one key adds to a measure adds what that record adds. -/
theorem foldl_add_of_key {S : Type w} (measure : S → Nat) {step : S → V → S} {amount : V → Nat}
    (adds : ∀ s v, measure (step s v) = measure s + if key v = k then amount v else 0)
    (t : KeyedTable key) (s : S) :
    measure (t.entries.foldl step s) = measure s + (t.get k).elim 0 amount := by
  obtain ⟨entries, hd⟩ := t
  unfold get
  induction entries generalizing s with
  | nil => rfl
  | cons v rest ih =>
    rw [map_cons, nodup_cons] at hd
    rw [foldl_cons, ih _ hd.2, adds]
    by_cases he : key v = k
    · have ha : rest.find? (fun w => decide (key w = k)) = none := find?_eq_none.mpr fun w hm => by
          simpa using fun ho => hd.1 (mem_map.mpr ⟨w, hm, ho.trans he.symm⟩)
      simp [he, ha]
    · simp [he]

def erase (t : KeyedTable key) (k : K) : KeyedTable key :=
  t.filter fun v => decide (key v ≠ k)

@[simp] theorem mem_erase {t : KeyedTable key} : v ∈ t.erase k ↔ v ∈ t ∧ key v ≠ k := by
  simp [erase]

theorem erase_eq_self {t : KeyedTable key} (ha : t.get k = none) :
    (t.erase k).entries = t.entries := by
  rw [get_eq_none_iff] at ha
  simpa [erase, filter, mem_def] using ha

/-- Store a record, replacing the one with its key. -/
def put (t : KeyedTable key) (v : V) : KeyedTable key where
  entries := (t.erase (key v)).entries ++ [v]
  distinct := by
    rw [map_append]
    refine List.Nodup.append (t.erase (key v)).distinct (nodup_singleton _) ?_
    intro k inTable inSingle
    obtain ⟨w, member, rfl⟩ := mem_map.mp inTable
    exact (mem_erase.mp member).2 (by simpa using inSingle)

@[simp] theorem mem_put {t : KeyedTable key} {w : V} :
    w ∈ t.put v ↔ (w ∈ t ∧ key w ≠ key v) ∨ w = v := by
  simp [mem_def, put, erase, filter]

/-- Store a record in the place of the one with its key, or at the end. -/
def upsert (t : KeyedTable key) (v : V) : KeyedTable key where
  entries :=
    if (t.get (key v)).isSome then t.entries.map fun w => if key w = key v then v else w
    else t.entries ++ [v]
  distinct := by
    cases found : t.get (key v) with
    | none =>
      rw [if_neg (by simp), map_append]
      refine t.distinct.append (nodup_singleton _) ?_
      intro k inTable inSingle
      obtain ⟨w, member, rfl⟩ := mem_map.mp inTable
      exact get_eq_none_iff.mp found w member (by simpa using inSingle)
    | some old =>
      rw [if_pos Option.isSome_some, map_map]
      have sameKeys : (key ∘ fun w => if key w = key v then v else w) = key := by
        funext w
        by_cases hit : key w = key v <;> simp [hit]
      rw [sameKeys]
      exact t.distinct

@[simp] theorem mem_upsert {t : KeyedTable key} {w : V} :
    w ∈ t.upsert v ↔ (w ∈ t ∧ key w ≠ key v) ∨ w = v := by
  simp only [mem_def, upsert]
  cases hf : t.get (key v) with
  | none =>
    have ha := get_eq_none_iff.mp hf
    simp only [Option.isSome_none, Bool.false_eq_true, if_false, mem_append, mem_singleton]
    exact or_congr_left ⟨fun hm => ⟨hm, ha w hm⟩, And.left⟩
  | some old =>
    obtain ⟨hs, he⟩ := get_eq_some_iff.mp hf
    simp only [Option.isSome_some, if_true, mem_map]
    constructor
    · rintro ⟨u, hm, rfl⟩
      by_cases hit : key u = key v
      · exact .inr (if_pos hit)
      · exact .inl (by simpa [hit] using hm)
    · rintro (⟨hm, miss⟩ | rfl)
      · exact ⟨w, hm, if_neg miss⟩
      · exact ⟨old, hs, if_pos he⟩

/-- Rewrite the record stored under `k` without changing its key. -/
def modify (t : KeyedTable key) (k : K) (f : V → V) (keeps : ∀ v, key (f v) = key v) :
    KeyedTable key where
  entries := t.entries.map fun v => if key v = k then f v else v
  distinct := by
    have sameKeys : (key ∘ fun v => if key v = k then f v else v) = key := by
      funext v
      by_cases hit : key v = k <;> simp [hit, keeps]
    simpa [sameKeys] using t.distinct

variable {f : V → V}

@[simp] theorem mem_modify {t : KeyedTable key} {hk : ∀ v, key (f v) = key v} {w : V} :
    w ∈ t.modify k f hk ↔ (w ∈ t ∧ key w ≠ k) ∨ ∃ v, v ∈ t ∧ key v = k ∧ w = f v := by
  simp only [mem_def, modify, mem_map]
  constructor
  · rintro ⟨v, hm, rfl⟩
    by_cases hit : key v = k
    · exact .inr ⟨v, hm, hit, if_pos hit⟩
    · exact .inl (by simpa [hit] using hm)
  · rintro (⟨hm, miss⟩ | ⟨v, hm, hit, rfl⟩)
    · exact ⟨w, hm, if_neg miss⟩
    · exact ⟨v, hm, if_pos hit⟩

theorem follows_modify {R : V → V → Prop} (hr : ∀ v, R v v) (hm : ∀ v, R v (f v))
    (t : KeyedTable key) (k : K) (hk : ∀ v, key (f v) = key v) :
    Follows R t (t.modify k f hk) := by
  intro v hs
  rcases mem_modify.mp hs with ⟨old, -⟩ | ⟨old, hf, -, rfl⟩
  · exact ⟨v, old, hr v⟩
  · exact ⟨old, hf, hm old⟩

variable {t : KeyedTable key}

theorem get_put_self : (t.put v).get (key v) = some v :=
  get_eq_some_iff.mpr ⟨mem_put.mpr (.inr rfl), rfl⟩

theorem get_put_of_ne (hne : k ≠ key v) : (t.put v).get k = t.get k := by
  apply Option.ext
  intro w
  rw [get_eq_some_iff, get_eq_some_iff, mem_put]
  constructor
  · rintro ⟨⟨hm, _⟩ | rfl, rfl⟩
    · exact ⟨hm, rfl⟩
    · exact absurd rfl hne
  · rintro ⟨hm, rfl⟩
    exact ⟨.inl ⟨hm, hne⟩, rfl⟩

theorem get_upsert : (t.upsert v).get k = if k = key v then some v else t.get k := by
  apply Option.ext
  intro w
  have := mem_upsert (t := t) (v := v) (w := w)
  grind [get_eq_some_iff]

theorem get_erase_self : (t.erase k).get k = none :=
  get_eq_none_iff.mpr fun _ hm => (mem_erase.mp hm).2

theorem get_erase_of_ne {other : K} (hne : other ≠ k) : (t.erase k).get other = t.get other := by
  apply Option.ext
  intro w
  rw [get_eq_some_iff, get_eq_some_iff, mem_erase]
  constructor
  · rintro ⟨⟨hm, _⟩, rfl⟩
    exact ⟨hm, rfl⟩
  · rintro ⟨hm, rfl⟩
    exact ⟨⟨hm, hne⟩, rfl⟩

theorem get_modify_self {hk : ∀ v, key (f v) = key v} (hf : t.get k = some v) :
    (t.modify k f hk).get k = some (f v) := by
  obtain ⟨hm, hit⟩ := get_eq_some_iff.mp hf
  exact get_eq_some_iff.mpr ⟨mem_modify.mpr (.inr ⟨v, hm, hit, rfl⟩), (hk v).trans hit⟩

theorem erase_put : ((t.put v).erase (key v)).entries = (t.erase (key v)).entries := by
  simp [erase, put, filter]

theorem erase_put_of_absent (ha : t.get (key v) = none) : (t.put v).erase (key v) = t :=
  ext_entries (erase_put.trans (erase_eq_self ha))

theorem erase_modify {hk : ∀ v, key (f v) = key v} :
    ((t.modify k f hk).erase k).entries = (t.erase k).entries := by
  simp only [erase, filter, modify, filter_map]
  have predEq : ((fun v => decide (key v ≠ k)) ∘ fun v => if key v = k then f v else v) =
      fun v => decide (key v ≠ k) := by
    funext v
    by_cases hit : key v = k <;> simp [hit, hk]
  rw [predEq]
  refine (map_congr_left fun v hm => ?_).trans (map_id _)
  simp at hm
  simp [hm.2]

theorem entries_perm (t : KeyedTable key) (k : K) :
    t.entries.Perm ((t.erase k).entries ++ (t.get k).toList) := by
  obtain ⟨entries, hd⟩ := t
  simp only [erase, filter, get]
  induction entries with
  | nil => simp
  | cons v rest ih =>
    rw [map_cons, nodup_cons] at hd
    by_cases hit : key v = k
    · have misses : rest.filter (fun w => decide (key w ≠ k)) = rest := by
        refine filter_eq_self.mpr fun w hm => ?_
        have : key w ≠ k := fun he => hd.1 (hit ▸ he ▸ mem_map_of_mem hm)
        simpa using this
      rw [filter_cons_of_neg (by simpa using hit), misses, find?_cons_of_pos (by simpa using hit)]
      exact (perm_append_singleton v rest).symm
    · rw [filter_cons_of_pos (by simpa using hit), find?_cons_of_neg (by simpa using hit)]
      exact (ih hd.2).cons v

def count (p : V → Bool) (t : KeyedTable key) : Nat := t.entries.countP p

theorem count_eq_erase_add (p : V → Bool) (t : KeyedTable key) (k : K) :
    t.count p = (t.erase k).count p + ((t.get k).filter p).toList.length := by
  unfold count
  rw [(t.entries_perm k).countP_eq, countP_append]
  cases t.get k with
  | none => rfl
  | some v => by_cases hh : p v = true <;> simp [hh, Option.filter]

section Count

variable (p : V → Bool) (t : KeyedTable key) {k : K} {v w : V}

theorem count_erase_of_get (hf : t.get k = some v) :
    (t.erase k).count p + (p v).toNat = t.count p := by
  rw [t.count_eq_erase_add p k, hf]
  cases hh : p v <;> simp [Option.filter, hh]

theorem count_erase_of_absent (ha : t.get k = none) : (t.erase k).count p = t.count p := by
  rw [t.count_eq_erase_add p k, ha]
  rfl

theorem count_put (v : V) : (t.put v).count p = (t.erase (key v)).count p + (p v).toNat := by
  cases hh : p v <;> simp [count, put, hh]

theorem count_put_of_absent (ha : t.get (key v) = none) :
    (t.put v).count p = t.count p + (p v).toNat := by
  rw [count_put, t.count_erase_of_absent p ha]

theorem count_put_of_get (hf : t.get (key v) = some w) :
    (t.put v).count p + (p w).toNat = t.count p + (p v).toNat := by
  rw [count_put, ← t.count_erase_of_get p hf]
  omega

theorem count_modify_of_get {f : V → V} (hk : ∀ v, key (f v) = key v) (hf : t.get k = some v) :
    (t.modify k f hk).count p + (p v).toNat = t.count p + (p (f v)).toNat := by
  have before := t.count_erase_of_get p hf
  have after := (t.modify k f hk).count_erase_of_get p (get_modify_self hf)
  have he : ((t.modify k f hk).erase k).count p = (t.erase k).count p := by
    unfold count
    rw [erase_modify]
  omega

omit [DecidableEq K] in
theorem count_filter {q : V → Bool} (hk : ∀ v ∈ t, p v = true → q v = true) :
    (t.filter q).count p = t.count p := by
  unfold count filter
  rw [countP_filter]
  apply countP_congr
  intro v hm
  constructor
  · intro hb
    exact (Bool.and_eq_true_iff.mp hb).1
  · intro hh
    exact Bool.and_eq_true_iff.mpr ⟨hh, hk v hm hh⟩

end Count

variable (t : KeyedTable key)

theorem length_erase_add_of_get (hf : t.get k = some v) :
    (t.erase k).entries.length + 1 = t.entries.length := by
  have hc := t.count_eq_erase_add (fun _ => true) k
  simp [count, hf] at hc
  exact hc.symm

theorem length_put_of_get {w : V} (hf : t.get (key v) = some w) :
    (t.put v).entries.length = t.entries.length := by
  rw [← t.length_erase_add_of_get hf]
  simp [put]

theorem length_put_of_absent (ha : t.get (key v) = none) :
    (t.put v).entries.length = t.entries.length + 1 := by
  simp [put, erase_eq_self ha]

end KeyedTable

/-- Finite maps as tables of pairs. -/
abbrev Assoc (K : Type u) (V : Type v) := KeyedTable (Prod.fst : K × V → K)

namespace Assoc

variable {K : Type u} {V : Type v} [DecidableEq K]

def lookup (m : Assoc K V) (k : K) : Option V := (m.get k).map Prod.snd

def set (m : Assoc K V) (k : K) (v : V) : Assoc K V := m.put (k, v)

@[simp] theorem lookup_empty (k : K) : lookup (KeyedTable.empty : Assoc K V) k = none := rfl

variable (m : Assoc K V)

@[simp] theorem lookup_set_self (k : K) (v : V) : lookup (set m k v) k = some v := by
  have hf : (m.put (k, v)).get k = some (k, v) := KeyedTable.get_put_self
  simp [lookup, set, hf]

@[simp] theorem lookup_set_of_ne {k other : K} (v : V) (hne : other ≠ k) :
    lookup (set m k v) other = lookup m other := by
  have he : (m.put (k, v)).get other = m.get other := KeyedTable.get_put_of_ne hne
  simp [lookup, set, he]

@[simp] theorem lookup_erase_self (k : K) : lookup (m.erase k) k = none := by
  simp [lookup, KeyedTable.get_erase_self]

@[simp] theorem lookup_erase_of_ne {k other : K} (hne : other ≠ k) :
    lookup (m.erase k) other = lookup m other := by
  simp [lookup, KeyedTable.get_erase_of_ne hne]

theorem erase_set_of_absent {m : Assoc K V} {k : K} {v : V} (ha : m.lookup k = none) :
    (m.set k v).erase k = m :=
  KeyedTable.erase_put_of_absent (Option.map_eq_none_iff.mp ha)

def mapValues {W : Type w} (f : V → W) (m : Assoc K V) : Assoc K W where
  entries := m.entries.map fun entry => (entry.1, f entry.2)
  distinct := by
    rw [map_map]
    exact m.distinct

theorem lookup_eq_some_iff {m : Assoc K V} {k : K} {v : V} :
    lookup m k = some v ↔ (k, v) ∈ m.entries := by
  simp only [lookup, Option.map_eq_some_iff, KeyedTable.get_eq_some_iff]
  constructor
  · rintro ⟨⟨k', v'⟩, ⟨hm, rfl⟩, rfl⟩
    exact hm
  · intro hm
    exact ⟨(k, v), ⟨hm, rfl⟩, rfl⟩

@[simp] theorem lookup_mapValues {W : Type w} (f : V → W) (m : Assoc K V) (k : K) :
    lookup (mapValues f m) k = (lookup m k).map f := by
  refine Option.ext fun v => ?_
  rw [lookup_eq_some_iff, Option.map_eq_some_iff]
  constructor
  · intro hm
    obtain ⟨⟨_, old⟩, hs, he⟩ := mem_map.mp hm
    obtain ⟨rfl, rfl⟩ := Prod.mk.inj he
    exact ⟨old, lookup_eq_some_iff.mpr hs, rfl⟩
  · rintro ⟨old, hf, rfl⟩
    exact mem_map.mpr ⟨(k, old), lookup_eq_some_iff.mp hf, rfl⟩

end Assoc

end SkyTree.Foundation
