/-!
# Transition systems and conditional reachability

A system is a partial step function on labelled transitions. `Reached` collects
the states of those runs in which every step meets a condition on the state it
is taken from, so one induction rule serves both unconditional invariants and
invariants that hold only while a defective branch is avoided.
-/

namespace SkyTree.Foundation

universe u v

theorem of_guard {α : Type u} {c : Prop} [Decidable c] {a b : α}
    (h : (if c then some a else none) = some b) : c ∧ a = b :=
  (Option.ite_none_right_eq_some.mp h).imp_right Option.some.inj

/-- A labelled transition system; `none` marks a label that is not enabled. -/
structure System (State : Type u) (Label : Type v) where
  step : State → Label → Option State

namespace System

variable {State : Type u} {Label : Type v} (M : System State Label)

/-- Execute a list of labels, failing at the first one that is not enabled. -/
def run (s : State) : List Label → Option State
  | [] => some s
  | label :: rest =>
    match M.step s label with
    | none => none
    | some next => run next rest

/-- Every step of the labelled run from `s` meets `condition` where it is taken. -/
def Meets (condition : State → Label → Prop) (s : State) : List Label → Prop
  | [] => True
  | label :: rest =>
    condition s label ∧
      match M.step s label with
      | none => True
      | some next => Meets condition next rest

instance Meets.decidable (condition : State → Label → Prop)
    [decideCondition : ∀ s label, Decidable (condition s label)]
    (s : State) : (labels : List Label) → Decidable (M.Meets condition s labels)
  | [] => isTrue trivial
  | label :: rest =>
    match step : M.step s label, decideCondition s label with
    | _, isFalse refuted => isFalse fun met => refuted met.1
    | none, isTrue holds => isTrue ⟨holds, by rw [step]; trivial⟩
    | some next, isTrue holds =>
      match Meets.decidable condition next rest with
      | isTrue tail => isTrue ⟨holds, by rw [step]; exact tail⟩
      | isFalse refuted => isFalse fun met => refuted (by
          have tail := met.2
          rw [step] at tail
          exact tail)

/-- The states reached from `start` by runs all of whose steps meet `condition`. -/
inductive Reached (condition : State → Label → Prop) (start : State) : State → Prop where
  | refl : Reached condition start start
  | step {s next : State} {label : Label} :
      Reached condition start s → condition s label → M.step s label = some next →
      Reached condition start next

variable {M} {condition : State → Label → Prop} {start s : State}

theorem Reached.invariant {Inv : State → Prop} (hr : M.Reached condition start s) (hi : Inv start)
    (hp : ∀ s label next, Inv s → condition s label →
      M.step s label = some next → Inv next) : Inv s := by
  induction hr with
  | refl => exact hi
  | step _ met ht ih => exact hp _ _ _ ih met ht

theorem Reached.trans {mid : State}
    (first : M.Reached condition start mid) (hs : M.Reached condition mid s) :
    M.Reached condition start s := by
  induction hs with
  | refl => exact first
  | step _ met ht ih => exact .step ih met ht

theorem Meets.of_forall {labels : List Label}
    (ha : ∀ s, ∀ label ∈ labels, condition s label) : M.Meets condition s labels := by
  induction labels generalizing s with
  | nil => trivial
  | cons label rest ih =>
    refine ⟨ha s label List.mem_cons_self, ?_⟩
    split
    · trivial
    · exact ih fun s o hm =>
        ha s o (List.mem_cons_of_mem _ hm)

theorem reached_of_run {labels : List Label}
    (he : M.run start labels = some s) (met : M.Meets condition start labels) :
    M.Reached condition start s := by
  induction labels generalizing start with
  | nil =>
    obtain rfl : start = s := Option.some.inj he
    exact .refl
  | cons label rest ih =>
    obtain ⟨hh, tail⟩ := met
    simp only [run] at he
    cases ht : M.step start label with
    | none => simp [ht] at he
    | some next =>
      simp only [ht] at he tail
      exact (Reached.refl.step hh ht).trans (ih he tail)

end System

end SkyTree.Foundation
