import SkyTree.Acl.Policy
import SkyTree.Foundation.Transition

/-!
# The manager of the stored rules

The manager keeps the ruleset in the key store and an evaluator in memory. Every call
works on the store first and swaps the evaluator afterwards. `Reload` and `DeleteRuleset` do
so without the manager's lock, and the store can change before their swap. The evaluator is
that of the store unless another call wrote the store between the last swap and the store
operation it belongs to.
-/

namespace SkyTree.Acl

open Foundation Function

universe u

def validateIdentity (id : Identity) : Except String Unit :=
  if id.username = "" ∧ id.clientID = "" then
    .error "invalid identity: username and client_id are both empty"
  else .ok ()

def validateRules : List Rule → Except String Unit
  | [] => .ok ()
  | rule :: rest =>
    match validateIdentity rule.identity with
    | .error err => .error err
    | .ok () => validateRules rest

def validateRuleset (ruleset : Ruleset) : Except String Unit := validateRules ruleset.rules

def sameIdentity (a b : Identity) : Bool := a.username = b.username && a.clientID = b.clientID

def applyDefaultDeny (defaultDeny : Bool) (ruleset : Ruleset) : Ruleset :=
  if ruleset.defaultDeny = false ∧ defaultDeny = true then { ruleset with defaultDeny := true }
  else ruleset

def upsertInto (rule : Rule) : List Rule → List Rule
  | [] => [rule]
  | first :: rest =>
    if sameIdentity first.identity rule.identity then rule :: rest
    else first :: upsertInto rule rest

def hasIdentity (id : Identity) (rules : List Rule) : Bool :=
  rules.any fun rule => sameIdentity rule.identity id

def withoutIdentity (id : Identity) (rules : List Rule) : List Rule :=
  rules.filter fun rule => !sameIdentity rule.identity id

/-- The evaluator of what is stored; the configured default can only add denial. -/
def evaluatorOf (defaultDeny : Bool) (stored : Option Ruleset) : Option Ruleset :=
  stored.map (applyDefaultDeny defaultDeny)

inductive ManagerCall where
  | reload
  | putRuleset (ruleset : Ruleset)
  | deleteRuleset
  | upsertRule (rule : Rule)
  | deleteRule (id : Identity)

/-- How far a call has come; the result carries what `DeleteRule` reports, `true` elsewhere. -/
inductive CallPhase where
  | called
  | locked
  | writing (ruleset : Ruleset)
  | swapping (evaluator : Option Ruleset)
  | returned (result : Except String Bool)

structure ManagerState (ι : Type u) where
  stored : Option Ruleset
  current : Option Ruleset
  lock : Option ι := none
  phases : ι → CallPhase

namespace ManagerState

variable {ι : Type u} [DecidableEq ι] (s : ManagerState ι) (i : ι)

def setPhase (phase : CallPhase) : ManagerState ι :=
  { s with phases := Function.update s.phases i phase }

def acquire (phase : CallPhase) : Option (ManagerState ι) :=
  if s.lock = none then some { s.setPhase i phase with lock := some i } else none

def release : Option ι := if s.lock = some i then none else s.lock

def giveUp (result : Except String Bool) : ManagerState ι :=
  { s.setPhase i (.returned result) with lock := s.release i }

variable (defaultDeny : Bool)

def enter : ManagerCall → Option (ManagerState ι)
  | .reload =>
    match s.stored with
    | none => some (s.setPhase i (.returned (.error "acl ruleset not found")))
    | some ruleset => some (s.setPhase i (.swapping (some (applyDefaultDeny defaultDeny ruleset))))
  | .deleteRuleset => some { s.setPhase i (.swapping none) with stored := none }
  | .putRuleset ruleset =>
    match validateRuleset ruleset with
    | .error err => some (s.setPhase i (.returned (.error err)))
    | .ok () => s.acquire i (.writing (applyDefaultDeny defaultDeny ruleset))
  | .upsertRule rule =>
    match validateIdentity rule.identity with
    | .error err => some (s.setPhase i (.returned (.error err)))
    | .ok () => s.acquire i .locked
  | .deleteRule id =>
    match validateIdentity id with
    | .error err => some (s.setPhase i (.returned (.error err)))
    | .ok () => s.acquire i .locked

def readLocked : ManagerCall → Option (ManagerState ι)
  | .upsertRule rule =>
    let ruleset := applyDefaultDeny defaultDeny (s.stored.getD { defaultDeny := defaultDeny })
    some (s.setPhase i (.writing { ruleset with rules := upsertInto rule ruleset.rules }))
  | .deleteRule id =>
    match s.stored with
    | none => some (s.giveUp i (.ok false))
    | some ruleset =>
      if hasIdentity id ruleset.rules then
        some (s.setPhase i (.writing (applyDefaultDeny defaultDeny
          { ruleset with rules := withoutIdentity id ruleset.rules })))
      else some (s.giveUp i (.ok false))
  | _ => none

def advance (call : ManagerCall) : Option (ManagerState ι) :=
  match s.phases i with
  | .called => s.enter i defaultDeny call
  | .locked => s.readLocked i defaultDeny call
  | .writing ruleset =>
    some { s.setPhase i (.swapping (some ruleset)) with stored := some ruleset }
  | .swapping evaluator =>
    some { s.setPhase i (.returned (.ok true)) with
      current := evaluator
      lock := s.release i }
  | .returned _ => none

end ManagerState

inductive StoreAccess where
  | none
  | read
  | write

/-- The store operation that a call's swap follows, where it comes next. -/
def CallPhase.access : CallPhase → ManagerCall → StoreAccess
  | .called, .reload => .read
  | .called, .deleteRuleset => .write
  | .writing _, _ => .write
  | _, _ => .none

def aclManager {ι : Type u} [DecidableEq ι] (defaultDeny : Bool) (calls : ι → ManagerCall) :
    System (ManagerState ι) ι where
  step s i := s.advance i defaultDeny (calls i)

def ManagerState.before {ι : Type u} (stored current : Option Ruleset) : ManagerState ι where
  stored := stored
  current := current
  phases _ := .called

/-! ## What an operation does -/

/-- The configured default is already part of the ruleset. -/
def Complete (defaultDeny : Bool) (ruleset : Ruleset) : Prop :=
  applyDefaultDeny defaultDeny ruleset = ruleset

theorem complete_iff {deny : Bool} {rules : Ruleset} :
    Complete deny rules ↔ (deny = true → rules.defaultDeny = true) := by
  unfold Complete applyDefaultDeny
  split
  next adds =>
    constructor
    · intro he _
      rw [← he]
    · intro hd
      exact absurd (hd adds.2) (by simp [adds.1])
  next keeps =>
    refine ⟨fun _ hc => ?_, fun _ => rfl⟩
    by_contra ha
    exact keeps ⟨by simpa using ha, hc⟩

theorem applyDefaultDeny_complete (deny : Bool) (rules : Ruleset) :
    Complete deny (applyDefaultDeny deny rules) := by
  rw [complete_iff]
  intro hc
  unfold applyDefaultDeny
  split
  next => rfl
  next keeps =>
    by_contra ha
    exact keeps ⟨by simpa using ha, hc⟩

def CallPhase.isSwapping : CallPhase → Bool
  | .swapping _ => true
  | _ => false

inductive ManagerMoves {ι : Type u} [DecidableEq ι] (defaultDeny : Bool) (call : ManagerCall)
    (s : ManagerState ι) (i : ι) : ManagerState ι → Prop where
  | waits {phase lock} (early : (s.phases i).isSwapping = false)
      (unwritten : (s.phases i).access call ≠ .write) (quiet : phase.isSwapping = false)
      (complete : ∀ ruleset, phase = .writing ruleset → Complete defaultDeny ruleset) :
      ManagerMoves defaultDeny call s i { s.setPhase i phase with lock := lock }
  | loads (reads : (s.phases i).access call = .read) :
      ManagerMoves defaultDeny call s i
        (s.setPhase i (.swapping (evaluatorOf defaultDeny s.stored)))
  | stores {content} (evaluator : Option Ruleset)
      (writes : (s.phases i).access call = .write)
      (complete : (∀ ruleset, s.phases i = .writing ruleset → Complete defaultDeny ruleset) →
        evaluator = evaluatorOf defaultDeny content) :
      ManagerMoves defaultDeny call s i
        { s.setPhase i (.swapping evaluator) with stored := content }
  | swaps {evaluator lock} (ready : s.phases i = .swapping evaluator) :
      ManagerMoves defaultDeny call s i
        { s.setPhase i (.returned (.ok true)) with current := evaluator, lock := lock }

section Moves

variable {ι : Type u} [DecidableEq ι] {deny : Bool} {call : ManagerCall}
  {s next : ManagerState ι} {i : ι}

theorem ManagerMoves.returns (early : (s.phases i).isSwapping = false)
    (unwritten : (s.phases i).access call ≠ .write) (result : Except String Bool) :
    ManagerMoves deny call s i (s.setPhase i (.returned result)) :=
  .waits early unwritten rfl nofun

theorem ManagerMoves.of_acquire (early : (s.phases i).isSwapping = false)
    (unwritten : (s.phases i).access call ≠ .write) {phase : CallPhase}
    (quiet : phase.isSwapping = false)
    (complete : ∀ ruleset, phase = .writing ruleset → Complete deny ruleset)
    (taken : s.acquire i phase = some next) : ManagerMoves deny call s i next := by
  obtain ⟨-, rfl⟩ := of_guard taken
  exact .waits early unwritten quiet complete

theorem ManagerMoves.of_enter (called : s.phases i = .called)
    (taken : s.enter i deny call = some next) : ManagerMoves deny call s i next := by
  have early : (s.phases i).isSwapping = false := by rw [called]; rfl
  have access : (s.phases i).access call = CallPhase.access .called call := by rw [called]
  cases call with
  | reload =>
    cases found : s.stored with
    | none =>
      simp only [ManagerState.enter, found] at taken
      cases taken
      exact .returns early (by simp [called, CallPhase.access]) _
    | some rules =>
      simp only [ManagerState.enter, found] at taken
      cases taken
      have loaded : some (applyDefaultDeny deny rules) = evaluatorOf deny s.stored := by
        rw [found]
        rfl
      rw [loaded]
      exact .loads access
  | deleteRuleset =>
    cases taken
    exact .stores none access fun _ => rfl
  | putRuleset rules =>
    simp only [ManagerState.enter] at taken
    split at taken
    next =>
      cases taken
      exact .returns early (by simp [called, CallPhase.access]) _
    next =>
      refine .of_acquire early (by simp [called, CallPhase.access]) rfl (fun _ same => ?_) taken
      obtain rfl := CallPhase.writing.inj same
      exact applyDefaultDeny_complete deny rules
  | upsertRule rule | deleteRule id =>
    simp only [ManagerState.enter] at taken
    split at taken
    next =>
      cases taken
      exact .returns early (by simp [called, CallPhase.access]) _
    next =>
      exact .of_acquire early (by simp [called, CallPhase.access]) rfl
        (fun _ same => by cases same) taken

theorem ManagerMoves.of_readLocked (locked : s.phases i = .locked)
    (taken : s.readLocked i deny call = some next) : ManagerMoves deny call s i next := by
  have early : (s.phases i).isSwapping = false := by rw [locked]; rfl
  have unwritten : (s.phases i).access call ≠ .write := by simp [CallPhase.access, locked]
  have writes {rules : Ruleset} (complete : Complete deny rules) :
      ManagerMoves deny call s i (s.setPhase i (.writing rules)) :=
    .waits early unwritten rfl fun _ same => CallPhase.writing.inj same ▸ complete
  cases call with
  | upsertRule rule =>
    cases taken
    exact writes (complete_iff.mpr (complete_iff.mp (applyDefaultDeny_complete _ _) :))
  | deleteRule id =>
    simp only [ManagerState.readLocked] at taken
    split at taken
    next =>
      cases taken
      exact .waits early unwritten rfl nofun
    next rules found =>
      split at taken
      next =>
        cases taken
        exact writes (applyDefaultDeny_complete _ _)
      next =>
        cases taken
        exact .waits early unwritten rfl nofun
  | _ => cases taken

theorem ManagerMoves.of_step {calls : ι → ManagerCall}
    (taken : (aclManager deny calls).step s i = some next) :
    ManagerMoves deny (calls i) s i next := by
  have moved : s.advance i deny (calls i) = some next := taken
  unfold ManagerState.advance at moved
  split at moved
  next current => exact .of_enter current moved
  next current => exact .of_readLocked current moved
  next rules current =>
    cases moved
    refine .stores (some rules) (by simp [CallPhase.access, current]) fun complete => ?_
    rw [evaluatorOf, Option.map_some, complete rules current]
  next evaluator current =>
    cases moved
    exact .swaps current
  next => cases moved

end Moves

/-! ## Agreement of store and evaluator -/

/-- The manager with the order of its operations: which calls were overtaken by a store write
since their own store operation, and whether the one that swapped last was. -/
structure ObservedManager (ι : Type u) where
  manager : ManagerState ι
  overtaken : ι → Bool := fun _ => false
  lastSwap : Option Bool := none

namespace ObservedManager

variable {ι : Type u} [DecidableEq ι]

def observe (s : ObservedManager ι) (i : ι) (call : ManagerCall) (manager : ManagerState ι) :
    ObservedManager ι where
  manager := manager
  overtaken :=
    match (s.manager.phases i).access call with
    | .read => Function.update s.overtaken i false
    | .write => fun j => decide (j ≠ i)
    | .none => s.overtaken
  lastSwap := if (s.manager.phases i).isSwapping then some (s.overtaken i) else s.lastSwap

/-- No call wrote the store between the last swap and its call's own store operation; without
a swap, the evaluator agreed with the store from the start. -/
def SwappedInTime (s : ObservedManager ι) (agreed : Prop) : Prop :=
  s.lastSwap = some false ∨ s.lastSwap = none ∧ agreed

end ObservedManager

def observedManager {ι : Type u} [DecidableEq ι] (defaultDeny : Bool) (calls : ι → ManagerCall) :
    System (ObservedManager ι) ι where
  step s i := ((aclManager defaultDeny calls).step s.manager i).map (s.observe i (calls i))

namespace ObservedManager

variable {ι : Type u} [DecidableEq ι] {deny : Bool} {call : ManagerCall}
  {s : ObservedManager ι} {next : ManagerState ι} {i : ι} {agreed : Prop}

/-- A call that was not overtaken holds the evaluator of the store, and after a swap in time
the active one is that evaluator or another swap is to come. -/
structure Settling (defaultDeny : Bool) (agreed : Prop) (s : ObservedManager ι) : Prop where
  complete : ∀ i ruleset, s.manager.phases i = .writing ruleset → Complete defaultDeny ruleset
  fresh : ∀ i evaluator, s.manager.phases i = .swapping evaluator → s.overtaken i = false →
    evaluator = evaluatorOf defaultDeny s.manager.stored
  agrees : s.SwappedInTime agreed →
    s.manager.current = evaluatorOf defaultDeny s.manager.stored ∨
      ∃ j, (s.manager.phases j).isSwapping = true

theorem complete_setPhase (settling : s.Settling deny agreed) {phase : CallPhase}
    (own : ∀ ruleset, phase = .writing ruleset → Complete deny ruleset) (j : ι)
    (ruleset : Ruleset) (writes : Function.update s.manager.phases i phase j = .writing ruleset) :
    Complete deny ruleset := by
  by_cases same : j = i
  · subst same
    rw [update_self] at writes
    exact own ruleset writes
  · rw [update_of_ne same] at writes
    exact settling.complete j ruleset writes

theorem Settling.waits (settling : s.Settling deny agreed) {phase : CallPhase} {lock : Option ι}
    (early : (s.manager.phases i).isSwapping = false)
    (unwritten : (s.manager.phases i).access call ≠ .write) (quiet : phase.isSwapping = false)
    (complete : ∀ ruleset, phase = .writing ruleset → Complete deny ruleset) :
    (s.observe i call { s.manager.setPhase i phase with lock := lock }).Settling deny agreed := by
  have swaps {j : ι} {evaluator : Option Ruleset}
      (ready : Function.update s.manager.phases i phase j = .swapping evaluator) :
      j ≠ i ∧ s.manager.phases j = .swapping evaluator := by
    by_cases same : j = i
    · subst same
      rw [update_self] at ready
      rw [ready] at quiet
      cases quiet
    · rw [update_of_ne same] at ready
      exact ⟨same, ready⟩
  refine ⟨complete_setPhase settling complete, fun j evaluator ready current => ?_, ?_⟩
  · obtain ⟨other, ready⟩ := swaps ready
    refine settling.fresh j evaluator ready ?_
    cases access : (s.manager.phases i).access call with
    | none => simpa [observe, access] using current
    | read => simpa [observe, access, other] using current
    | write => exact absurd access unwritten
  · intro inTime
    have kept : (s.observe i call { s.manager.setPhase i phase with lock := lock }).lastSwap =
        s.lastSwap := by simp [observe, early]
    have before : s.SwappedInTime agreed := by rwa [SwappedInTime, kept] at inTime
    refine (settling.agrees before).imp_right fun ⟨j, ready⟩ => ⟨j, ?_⟩
    have other : j ≠ i := by
      rintro rfl
      rw [ready] at early
      cases early
    exact (congrArg CallPhase.isSwapping (update_of_ne other ..)).trans ready

theorem Settling.prepares (settling : s.Settling deny agreed) {manager : ManagerState ι}
    {evaluator : Option Ruleset} (phases : manager.phases =
      Function.update s.manager.phases i (.swapping evaluator))
    (fresh : ∀ j other, manager.phases j = .swapping other →
      (s.observe i call manager).overtaken j = false →
        other = evaluatorOf deny manager.stored) :
    (s.observe i call manager).Settling deny agreed := by
  refine ⟨fun j ruleset writes => ?_, fresh, fun _ => .inr ⟨i, ?_⟩⟩
  · change manager.phases j = _ at writes
    rw [phases] at writes
    exact complete_setPhase settling (fun _ same => by cases same) j ruleset writes
  · change (manager.phases i).isSwapping = true
    rw [phases, update_self]
    rfl

theorem Settling.swaps (settling : s.Settling deny agreed) {evaluator : Option Ruleset}
    {lock : Option ι} (ready : s.manager.phases i = .swapping evaluator) :
    (s.observe i call { s.manager.setPhase i (.returned (.ok true)) with
      current := evaluator, lock := lock }).Settling deny agreed := by
  have access : (s.manager.phases i).access call = .none := by simp [CallPhase.access, ready]
  refine ⟨complete_setPhase settling (fun _ same => nomatch same), fun j other swaps fresh => ?_,
    fun inTime => ?_⟩
  · by_cases same : j = i
    · subst same
      have returned : Function.update s.manager.phases j (.returned (.ok true)) j =
        .swapping other := swaps
      rw [update_self] at returned
      cases returned
    · refine settling.fresh j other ((update_of_ne same ..).symm.trans swaps) ?_
      simpa [observe, access] using fresh
  · have fresh : s.overtaken i = false := by
      simpa [SwappedInTime, observe, ready, CallPhase.isSwapping] using inTime
    exact .inl (settling.fresh i evaluator ready fresh)

theorem Settling.moves (settling : s.Settling deny agreed)
    (moves : ManagerMoves deny call s.manager i next) :
    (s.observe i call next).Settling deny agreed := by
  cases moves with
  | waits early unwritten quiet complete => exact settling.waits early unwritten quiet complete
  | loads reads =>
    refine settling.prepares rfl fun j other swaps fresh => ?_
    by_cases same : j = i
    · subst same
      exact (CallPhase.swapping.inj ((update_self ..).symm.trans swaps)).symm
    · refine settling.fresh j other ((update_of_ne same ..).symm.trans swaps) ?_
      simpa [observe, reads, same] using fresh
  | stores evaluator writes complete =>
    refine settling.prepares rfl fun j other swaps fresh => ?_
    obtain rfl : j = i := by simpa [observe, writes] using fresh
    rw [← CallPhase.swapping.inj ((update_self ..).symm.trans swaps)]
    exact complete (settling.complete j)
  | swaps ready => exact settling.swaps ready

end ObservedManager

/-- However the calls interleave, once all have returned the evaluator is that of the stored
ruleset, unless the call that swapped last was overtaken by a store write. -/
theorem evaluator_agrees_with_store {ι : Type u} [DecidableEq ι] {defaultDeny : Bool}
    {calls : ι → ManagerCall} {stored current : Option Ruleset} {s : ObservedManager ι}
    (reached : (observedManager defaultDeny calls).Reached (fun _ _ => True)
      { manager := .before stored current } s)
    (returned : ∀ i, ∃ result, s.manager.phases i = .returned result)
    (inTime : s.SwappedInTime (current = evaluatorOf defaultDeny stored)) :
    s.manager.current = evaluatorOf defaultDeny s.manager.stored := by
  have settling : s.Settling defaultDeny (current = evaluatorOf defaultDeny stored) := by
    refine reached.invariant ⟨fun _ _ same => (nomatch same), fun _ _ same => (nomatch same), ?_⟩ ?_
    · rintro (swapped | ⟨-, agreed⟩)
      · cases swapped
      · exact .inl agreed
    · intro s i next settling _ taken
      obtain ⟨manager, moved, rfl⟩ := Option.map_eq_some_iff.mp taken
      exact settling.moves (.of_step moved)
  refine (settling.agrees inTime).resolve_right ?_
  rintro ⟨j, swapping⟩
  obtain ⟨result, done⟩ := returned j
  rw [done] at swapping
  cases swapping

/-! ### A reload and a new ruleset -/

def reloadAndPut (second : Bool) : ManagerCall :=
  if second then .putRuleset { defaultDeny := true } else .reload

/-- A new manager over a filled store; the reload is overtaken, but the new ruleset is swapped
in after it. -/
theorem evaluator_agrees_with_store_interleaved :
    ∃ s : ObservedManager Bool, s.manager.stored = some { defaultDeny := true } ∧
      s.lastSwap = some false ∧ s.manager.current = evaluatorOf false s.manager.stored := by
  have evaluated : ∃ s, (observedManager false reloadAndPut).run
      { manager := .before (some {}) none } [false, true, true, false, true] = some s ∧
      s.manager.stored = some { defaultDeny := true } ∧ s.lastSwap = some false ∧
      ∀ i, ∃ result, s.manager.phases i = .returned result :=
    ⟨_, rfl, rfl, rfl, fun i => by cases i <;> exact ⟨_, rfl⟩⟩
  obtain ⟨s, evaluated, stored, swapped, returned⟩ := evaluated
  have reached := System.reached_of_run evaluated (.of_forall fun _ _ _ => trivial)
  exact ⟨s, stored, swapped, evaluator_agrees_with_store reached returned (.inl swapped)⟩

/-- The reload reads the old ruleset and swaps after the new one was stored and activated. -/
theorem evaluator_differs_from_store :
    ∃ s, (aclManager false reloadAndPut).Reached (fun _ _ => True)
        (.before (some {}) (some {})) s ∧ (∀ i, ∃ result, s.phases i = .returned result) ∧
      s.stored = some { defaultDeny := true } ∧ s.current = some {} := by
  have evaluated : ∃ s, (aclManager false reloadAndPut).run (.before (some {}) (some {}))
      [false, true, true, true, false] = some s ∧ (∀ i, ∃ result, s.phases i = .returned result) ∧
      s.stored = some { defaultDeny := true } ∧ s.current = some {} :=
    ⟨_, rfl, fun i => by cases i <;> exact ⟨_, rfl⟩, rfl, rfl⟩
  obtain ⟨s, evaluated, ends⟩ := evaluated
  exact ⟨s, System.reached_of_run evaluated (.of_forall fun _ _ _ => trivial), ends⟩

end SkyTree.Acl
