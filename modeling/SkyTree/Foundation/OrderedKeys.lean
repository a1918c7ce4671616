import Mathlib.Tactic

/-!
# Keys of an ordered store

A composed key is read from its start: keys with one beginning are an interval of the
order, and fixed-width big-endian numbers sort like the numbers.
-/

namespace SkyTree.Foundation

open List

universe u

theorem eq_of_terminated {α : Type u} {stop : α} {name other rest : List α} (ha : stop ∉ name)
    (absent' : stop ∉ other) (hb : name ++ [stop] <+: other ++ stop :: rest) :
    name = other := by
  induction name generalizing other with
  | nil =>
    cases other with
    | nil => rfl
    | cons second other =>
      cases (cons_prefix_cons.mp hb).1
      exact absurd mem_cons_self absent'
  | cons first name ih =>
    cases other with
    | nil =>
      cases (cons_prefix_cons.mp hb).1
      exact absurd mem_cons_self ha
    | cons second other =>
      obtain ⟨rfl, ht⟩ := cons_prefix_cons.mp hb
      rw [ih (fun hi => ha (.tail _ hi)) (fun hi => absent' (.tail _ hi)) ht]

section Beginnings

variable {α : Type u} [LinearOrder α]

theorem not_lt_of_begins {lead key : List α} (hb : lead <+: key) : ¬ key < lead := by
  obtain ⟨rest, rfl⟩ := hb
  induction lead with
  | nil => simp
  | cons first lead ih => simpa [cons_lt_cons_iff] using ih

theorem begins_of_between {lead key bound : List α} (begins : lead <+: bound)
    (ha : ¬ key < lead) (hb : ¬ bound < key) : lead <+: key := by
  induction lead generalizing key bound with
  | nil => exact nil_prefix
  | cons item lead ih =>
    obtain ⟨rest, rfl⟩ := begins
    cases key with
    | nil => simp at ha
    | cons first key =>
      simp only [cons_append, cons_lt_cons_iff, not_or, not_and] at ha hb
      obtain rfl : item = first := le_antisymm (not_lt.mp ha.1) (not_lt.mp hb.1)
      rw [cons_prefix_cons]
      exact ⟨rfl, ih (prefix_append lead rest) (ha.2 rfl) (hb.2 rfl)⟩

/-- Beginnings of one length decide the order before what follows them. -/
theorem append_lt_append_iff {a b x y : List α} (hl : a.length = b.length) :
    a ++ x < b ++ y ↔ a < b ∨ a = b ∧ x < y := by
  induction a generalizing b with
  | nil =>
    cases length_eq_zero_iff.mp hl.symm
    simp
  | cons first a ih =>
    cases b with
    | nil => cases hl
    | cons second b =>
      simp only [cons_append, cons_lt_cons_iff, ih (Nat.succ.inj hl), List.cons.injEq]
      tauto

end Beginnings

abbrev Byte := Fin 256

instance byteBound : NeZero 256 := ⟨by decide⟩

/-- The lowest `width` bytes of a number, the highest of them first. -/
def bigEndian : Nat → Nat → List Byte
  | 0, _ => []
  | width + 1, n => Fin.ofNat 256 (n / 256 ^ width) :: bigEndian width n

def ofBigEndian (bytes : List Byte) : Nat := bytes.foldl (fun n byte => n * 256 + byte.val) 0

@[simp] theorem length_bigEndian (width n : Nat) : (bigEndian width n).length = width := by
  induction width with
  | zero => rfl
  | succ width ih => simp [bigEndian, ih]

theorem foldl_bigEndian (width n start : Nat) :
    (bigEndian width n).foldl (fun n byte => n * 256 + byte.val) start =
      start * 256 ^ width + n % 256 ^ width := by
  induction width generalizing start with
  | zero => simp [bigEndian, Nat.mod_one]
  | succ width ih =>
    rw [bigEndian, foldl_cons, ih, Nat.mod_pow_succ, Fin.val_ofNat]
    ring

theorem ofBigEndian_bigEndian {width n : Nat} (hs : n < 256 ^ width) :
    ofBigEndian (bigEndian width n) = n := by
  rw [ofBigEndian, foldl_bigEndian, Nat.mod_eq_of_lt hs, Nat.zero_mul, Nat.zero_add]

theorem bigEndian_lt_iff_mod {width a b : Nat} :
    bigEndian width a < bigEndian width b ↔ a % 256 ^ width < b % 256 ^ width := by
  induction width with
  | zero => simp [bigEndian, Nat.mod_one]
  | succ width ih =>
    rw [bigEndian, bigEndian, cons_lt_cons_iff, ih, Nat.mod_pow_succ, Nat.mod_pow_succ,
      Fin.lt_def, Fin.ext_iff, Fin.val_ofNat, Fin.val_ofNat]
    have hp : 0 < 256 ^ width := Nat.pow_pos (by decide)
    have lowA := Nat.mod_lt a hp
    have lowB := Nat.mod_lt b hp
    generalize 256 ^ width = unit at *
    generalize a / unit % 256 = highA
    generalize b / unit % 256 = highB
    rcases Nat.lt_trichotomy highA highB with hl | rfl | hg
    · have := Nat.mul_le_mul_left unit hl
      rw [Nat.mul_succ] at this
      simp only [hl, true_or, true_iff]
      omega
    · simp
    · have := Nat.mul_le_mul_left unit hg
      rw [Nat.mul_succ] at this
      simp only [hg.not_gt, hg.ne', false_and, or_self, false_iff]
      omega

theorem bigEndian_lt_iff {width a b : Nat} (ha : a < 256 ^ width) (hb : b < 256 ^ width) :
    bigEndian width a < bigEndian width b ↔ a < b := by
  rw [bigEndian_lt_iff_mod, Nat.mod_eq_of_lt ha, Nat.mod_eq_of_lt hb]

theorem bigEndian_injOn {width a b : Nat} (ha : a < 256 ^ width) (hb : b < 256 ^ width) :
    bigEndian width a = bigEndian width b ↔ a = b := by
  refine ⟨fun he => ?_, congrArg _⟩
  rw [← ofBigEndian_bigEndian ha, he, ofBigEndian_bigEndian hb]

end SkyTree.Foundation
