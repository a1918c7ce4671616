import Mathlib.Tactic

/-!
# Ordered logs

An ordered log holds records in strictly increasing key order, as an ordered
key-value store does under one key prefix. A reader asks for the records after a
position; a trim removes everything up to a position.
-/

namespace SkyTree.Foundation

open List

universe u v

structure OrderedLog {K : Type u} [LinearOrder K] {V : Type v} (key : V → K) where
  entries : List V
  sorted : entries.Pairwise fun a b => key a < key b

namespace OrderedLog

variable {K : Type u} [LinearOrder K] {V : Type v} {key : V → K}

instance [DecidableEq V] : DecidableEq (OrderedLog key) := fun a b =>
  decidable_of_iff (a.entries = b.entries) ⟨fun same => by cases a; cases b; congr, congrArg _⟩

instance : Membership V (OrderedLog key) := ⟨fun log v => v ∈ log.entries⟩

variable {v : V}

theorem mem_def {log : OrderedLog key} : v ∈ log ↔ v ∈ log.entries := Iff.rfl

instance [DecidableEq V] (v : V) (log : OrderedLog key) : Decidable (v ∈ log) :=
  inferInstanceAs (Decidable (v ∈ log.entries))

def empty : OrderedLog key := ⟨[], List.Pairwise.nil⟩

instance : Inhabited (OrderedLog key) := ⟨empty⟩

@[simp] theorem not_mem_empty (v : V) : v ∉ (empty : OrderedLog key) := by
  simp [mem_def, empty]

theorem eq_of_key_eq (log : OrderedLog key) {w : V} (hv : v ∈ log) (hw : w ∈ log)
    (same : key v = key w) : v = w := by
  have distinct : (log.entries.map key).Nodup :=
    pairwise_map.mpr (log.sorted.imp fun below => ne_of_lt below)
  exact inj_on_of_nodup_map distinct hv hw same

def filter (p : V → Bool) (log : OrderedLog key) : OrderedLog key :=
  ⟨log.entries.filter p, log.sorted.filter p⟩

@[simp] theorem mem_filter {p : V → Bool} {log : OrderedLog key} :
    v ∈ log.filter p ↔ v ∈ log ∧ p v = true := by
  simp [mem_def, filter]

def erase (position : K) (log : OrderedLog key) : OrderedLog key :=
  log.filter fun v => decide (key v ≠ position)

variable {pos : K}

@[simp] theorem mem_erase {log : OrderedLog key} : v ∈ log.erase pos ↔ v ∈ log ∧ key v ≠ pos := by
  simp [erase]

def dropThrough (position : K) (log : OrderedLog key) : OrderedLog key :=
  log.filter fun v => decide (position < key v)

@[simp] theorem mem_dropThrough {log : OrderedLog key} :
    v ∈ log.dropThrough pos ↔ v ∈ log ∧ pos < key v := by
  simp [dropThrough]

def after (position : K) (log : OrderedLog key) : List V :=
  (log.dropThrough position).entries

@[simp] theorem mem_after {log : OrderedLog key} : v ∈ log.after pos ↔ v ∈ log ∧ pos < key v :=
  mem_dropThrough

theorem after_sorted (pos : K) (log : OrderedLog key) :
    (log.after pos).Pairwise fun a b => key a < key b :=
  (log.dropThrough pos).sorted

theorem after_eq_filter_after {later : K} (ho : pos ≤ later) (log : OrderedLog key) :
    log.after later = (log.after pos).filter fun v => decide (later < key v) := by
  simp only [after, dropThrough, filter, filter_filter]
  refine filter_congr fun v _ => ?_
  by_cases hb : later < key v
  · simp [hb, ho.trans_lt hb]
  · simp [hb]

/-- Reading on from the first record that a read returned gives the others. -/
theorem after_key {rest : List V} (log : OrderedLog key) (first : log.after pos = v :: rest) :
    log.after (key v) = rest := by
  have hs := log.after_sorted pos
  rw [first] at hs
  obtain ⟨hb, -⟩ := pairwise_cons.mp hs
  have ha : pos < key v := (mem_after.mp (first ▸ mem_cons_self)).2
  rw [log.after_eq_filter_after ha.le, first, filter_cons_of_neg (by simp)]
  exact filter_eq_self.mpr fun w hm => by simpa using hb w hm

/-- Store a record at its key, replacing the record already there. -/
def insert (v : V) (log : OrderedLog key) : OrderedLog key where
  entries := log.entries.filter (fun w => decide (key w < key v)) ++
    v :: log.entries.filter (fun w => decide (key v < key w))
  sorted := by
    refine pairwise_append.mpr ⟨log.sorted.filter _, ?_, ?_⟩
    · refine pairwise_cons.mpr ⟨fun w member => ?_, log.sorted.filter _⟩
      exact of_decide_eq_true (mem_filter.mp member).2
    · intro w below u above
      have before : key w < key v := of_decide_eq_true (mem_filter.mp below).2
      rcases mem_cons.mp above with rfl | above
      · exact before
      · exact before.trans (of_decide_eq_true (mem_filter.mp above).2)

@[simp] theorem mem_insert {w : V} {log : OrderedLog key} :
    w ∈ log.insert v ↔ w = v ∨ (w ∈ log ∧ key w ≠ key v) := by
  simp only [mem_def, insert, List.mem_append, List.mem_cons, List.mem_filter, decide_eq_true_eq]
  constructor
  · rintro (⟨hm, hb⟩ | rfl | ⟨hm, ha⟩)
    · exact .inr ⟨hm, hb.ne⟩
    · exact .inl rfl
    · exact .inr ⟨hm, ha.ne'⟩
  · rintro (rfl | ⟨hm, hne⟩)
    · exact .inr (.inl rfl)
    · rcases lt_or_gt_of_ne hne with hb | ha
      · exact .inl ⟨hm, hb⟩
      · exact .inr (.inr ⟨hm, ha⟩)

def get (log : OrderedLog key) (position : K) : Option V :=
  log.entries.find? fun v => decide (key v = position)

theorem get_eq_some_iff {log : OrderedLog key} : log.get pos = some v ↔ v ∈ log ∧ key v = pos := by
  constructor
  · intro found
    exact ⟨mem_of_find?_eq_some found, by simpa using find?_some found⟩
  · rintro ⟨member, rfl⟩
    cases found : log.get (key v) with
    | none =>
      have missed := find?_eq_none.mp found v member
      simp at missed
    | some other =>
      have same : key other = key v := by simpa using find?_some found
      rw [log.eq_of_key_eq (mem_of_find?_eq_some found) member same]

section Scan

variable {start : K} {valid : K → Bool}

/-- An iterator: seek the first key at or after `start`, stop at the first key that is
not `valid`. -/
def scan (start : K) (valid : K → Bool) (log : OrderedLog key) : List V :=
  (log.entries.dropWhile fun v => decide (key v < start)).takeWhile fun v => valid (key v)

/-- The iterator returns every valid record from `start` on when no key between them is
invalid. -/
theorem scan_eq_filter_ge (hc : ∀ k l, start ≤ k → k ≤ l → valid l = true → valid k = true)
    (log : OrderedLog key) :
    log.scan start valid = log.entries.filter fun v => decide (start ≤ key v) && valid (key v) := by
  obtain ⟨entries, hs⟩ := log
  simp only [scan]
  induction entries with
  | nil => rfl
  | cons first rest ih =>
    obtain ⟨hb, sorted⟩ := pairwise_cons.mp hs
    by_cases below : key first < start
    · rw [dropWhile_cons_of_pos (by simpa using below), ih sorted,
        filter_cons_of_neg (by simp [below.not_ge])]
    · have hr : start ≤ key first := not_lt.mp below
      rw [dropWhile_cons_of_neg (by simpa using below), takeWhile_cons]
      by_cases hh : valid (key first) = true
      · rw [if_pos hh, filter_cons_of_pos (by simp [hr, hh]), ← ih sorted]
        -- nothing behind a key at or above `start` is skipped by the seek
        congr 2
        cases rest with
        | nil => rfl
        | cons second rest =>
          rw [dropWhile_cons_of_neg]
          simpa using hr.trans (hb second mem_cons_self).le
      · rw [if_neg hh, filter_cons_of_neg (by simp [hh])]
        refine (filter_eq_nil_iff.mpr fun v behind validV => hh ?_).symm
        exact hc _ _ hr (hb v behind).le (Bool.and_eq_true_iff.mp validV).2

/-- The iterator returns every valid record when the valid keys are an interval above
`start`. -/
theorem scan_eq_filter (ha : ∀ k, valid k = true → start ≤ k)
    (hc : ∀ k l, start ≤ k → k ≤ l → valid l = true → valid k = true)
    (log : OrderedLog key) : log.scan start valid = log.entries.filter fun v => valid (key v) := by
  rw [scan_eq_filter_ge hc]
  refine filter_congr fun v _ => Bool.and_eq_right_iff_imp.mpr fun hh => ?_
  exact decide_eq_true (ha _ hh)

end Scan

section Batches

variable {pos : K} {log : OrderedLog key} {limit : Nat}

/-- A record that a bounded read leaves out lies after everything it returned. -/
theorem take_after_complete {v w : V} (hs : v ∈ log) (ha : pos < key v)
    (missed : v ∉ (log.after pos).take limit) (hr : w ∈ (log.after pos).take limit) :
    key w < key v := by
  have split := take_append_drop limit (log.after pos)
  have ho := log.after_sorted pos
  rw [← split] at ho
  have hit : v ∈ (log.after pos).drop limit := by
    have hm : v ∈ log.after pos := mem_after.mpr ⟨hs, ha⟩
    rw [← split] at hm
    exact (mem_append.mp hm).resolve_left missed
  exact (pairwise_append.mp ho).2.2 w hr v hit

/-- A record of a sorted list is among the first ones when few records precede it. -/
theorem mem_take_iff_of_sorted {records : List V} {v : V}
    (hs : records.Pairwise fun a b => key a < key b) (hm : v ∈ records) (limit : Nat) :
    v ∈ records.take limit ↔ (records.filter fun w => decide (key w < key v)).length < limit := by
  induction records generalizing limit with
  | nil => cases hm
  | cons first rest ih =>
    obtain ⟨hb, sorted⟩ := pairwise_cons.mp hs
    cases limit with
    | zero => simp
    | succ limit =>
      rw [take_succ_cons, mem_cons]
      rcases mem_cons.mp hm with rfl | later
      · have none : (v :: rest).filter (fun w => decide (key w < key v)) = [] := by
          apply filter_eq_nil_iff.mpr
          intro w hl
          rcases mem_cons.mp hl with rfl | behind
          · simp
          · simp [(hb w behind).le]
        simp [none]
      · have ha := hb v later
        have hne : v ≠ first := fun he => absurd ha (he ▸ lt_irrefl _)
        rw [filter_cons_of_pos (by simpa using ha), length_cons,
          Nat.add_lt_add_iff_right, ← ih sorted later limit]
        simp [hne]

/-- What lies after the last record of a page is what the page left out. -/
theorem filter_lt_getLast_take {records : List V} {v : V}
    (hs : records.Pairwise fun a b => key a < key b)
    (last : (records.take limit).getLast? = some v) :
    records.filter (fun w => decide (key v < key w)) = records.drop limit := by
  have split := take_append_drop limit records
  rw [← split] at hs
  obtain ⟨sorted, -, ha⟩ := pairwise_append.mp hs
  obtain ⟨front, hp⟩ := getLast?_eq_some_iff.mp last
  rw [hp] at sorted ha
  have inPage : (records.take limit).filter (fun w => decide (key v < key w)) = [] := by
    refine filter_eq_nil_iff.mpr fun w hl => ?_
    rw [hp] at hl
    rcases mem_append.mp hl with inFront | isLast
    · simpa using ((pairwise_append.mp sorted).2.2 w inFront v (by simp)).le
    · simp [mem_singleton.mp isLast]
  have hb : (records.drop limit).filter (fun w => decide (key v < key w)) = records.drop limit :=
    filter_eq_self.mpr fun w hl => decide_eq_true (ha v (by simp) w hl)
  calc records.filter (fun w => decide (key v < key w))
      = (records.take limit ++ records.drop limit).filter fun w => decide (key v < key w) := by
        rw [split]
    _ = records.drop limit := by rw [filter_append, inPage, hb, nil_append]

theorem mem_take_after_iff {v : V} : v ∈ (log.after pos).take limit ↔ (v ∈ log ∧ pos < key v) ∧
        ((log.after pos).filter fun w => decide (key w < key v)).length < limit := by
  constructor
  · intro hr
    have hm := mem_of_mem_take hr
    exact ⟨mem_after.mp hm, (mem_take_iff_of_sorted (log.after_sorted pos) hm limit).mp hr⟩
  · rintro ⟨ha, few⟩
    exact (mem_take_iff_of_sorted (log.after_sorted pos) (mem_after.mpr ha) limit).mpr few

theorem take_after_ne_nil {v : V} (hs : v ∈ log) (ha : pos < key v)
    (hr : 0 < limit) : (log.after pos).take limit ≠ [] := by
  intro hn
  have hm : v ∈ log.after pos := mem_after.mpr ⟨hs, ha⟩
  rcases take_eq_nil_iff.mp hn with hz | none
  · omega
  · rw [none] at hm
    exact absurd hm not_mem_nil

end Batches

end OrderedLog

end SkyTree.Foundation
