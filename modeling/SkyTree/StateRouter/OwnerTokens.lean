import SkyTree.Foundation.Transition
import SkyTree.StateRouter.Acquire

/-!
# Concurrent acquisitions of one client

Any number of `AcquireSession` calls for one client identifier, interleaved operation by
operation. Each call writes its token into the session center and later into the
subscription center; the two centers agree in the end when no call mirrors its token after
the call that is recorded as owner has mirrored its own.
-/

namespace SkyTree.StateRouter

open Foundation Mqtt Session Subscription Function

universe u

structure Acquisitions (ι : Type u) where
  centers : Centers
  phases : ι → AcquirePhase

def AcquirePhase.isReturned : AcquirePhase → Bool
  | .returned _ => true
  | _ => false

def AcquirePhase.isOwned : AcquirePhase → Bool
  | .owned _ _ => true
  | _ => false

def AcquirePhase.hasOpened : AcquirePhase → Bool
  | .called => false
  | .returned (.error _) => false
  | _ => true

def AcquirePhase.hasTakenOver : AcquirePhase → Bool
  | .owned _ _ => true
  | .returned (.ok _) => true
  | _ => false

theorem AcquirePhase.hasOpened_of_hasTakenOver {phase : AcquirePhase}
    (ht : phase.hasTakenOver = true) : phase.hasOpened = true := by
  cases phase with
  | returned res =>
    cases res with
    | error => cases ht
    | ok => rfl
  | owned => rfl
  | _ => cases ht

theorem AcquirePhase.hasTakenOver_of_isOwned {phase : AcquirePhase}
    (ho : phase.isOwned = true) : phase.hasTakenOver = true := by
  cases phase with
  | owned => rfl
  | _ => cases ho

/-! ## What an operation does -/

inductive AcquireMoves (request : AcquireSessionRequest) (centers : Centers) :
    AcquirePhase → Centers → AcquirePhase → Prop where
  | failed {phase err} (early : phase.hasTakenOver = false) :
      AcquireMoves request centers phase centers (.returned (.error err))
  | opened {session openResp}
      (named : request.clientID ≠ "") (live : session.expireAtUnixNano = 0) :
      AcquireMoves request centers .called
        { centers with
          sessions := (centers.sessions.dropExpired request.clientID request.nowUnixNano).setSession
            request.clientID session }
        (.opened openResp)
  | replaced {session openResp} (live : session.expireAtUnixNano = 0) :
      AcquireMoves request centers (.opened openResp)
        { centers with sessions := centers.sessions.setSession request.clientID session }
        (.replaced openResp)
  | tookOver {phase openResp previousOwner} (opened : phase.hasOpened = true)
      (early : phase.hasTakenOver = false) :
      AcquireMoves request centers phase
        { centers with sessions := centers.sessions.setOwner request.clientID request.owner }
        (.owned openResp previousOwner)
  | mirrored {openResp previousOwner} :
      AcquireMoves request centers (.owned openResp previousOwner)
        { centers with
          subscriptions :=
            (centers.subscriptions.setClientOwnerToken request.clientID request.ownerToken).1 }
        (.returned (.ok ⟨openResp, previousOwner⟩))

section Moves

variable {clock : Nat} {req : AcquireSessionRequest} {cens : Centers}

theorem AcquireMoves.of_takeOver {phase : AcquirePhase} (openResp : OpenSessionForConnectResponse)
    (ho : phase.hasOpened = true) (he : phase.hasTakenOver = false) :
    AcquireMoves req cens phase (takeOverOwner req openResp cens).1
      (takeOverOwner req openResp cens).2 := by
  by_cases hn : req.clientID = ""
  · simp only [takeOverOwner, Core.takeOverSessionOwner, AcquireSessionRequest.owner, hn, if_true]
    exact .failed he
  · rw [takeOverOwner_eq hn]
    exact .tookOver ho he

theorem AcquireMoves.of_step {phase : AcquirePhase} (hr : phase.isReturned = false) :
    AcquireMoves req cens phase (acquireStep clock req (cens, phase)).1
      (acquireStep clock req (cens, phase)).2 := by
  cases phase with
  | called =>
    cases hv : validateAcquireSessionRequest req with
    | error err =>
      simp only [acquireStep, hv]
      exact .failed rfl
    | ok =>
      rw [acquireStep_called hv]
      exact .opened (named_of_validateAcquire hv).1 rfl
  | opened openResp =>
    cases hc : req.cleanStart with
    | true =>
      by_cases hn : req.clientID = ""
      · simp only [acquireStep, hc, if_true, replaceSession,
          Core.replaceSessionStateOnCleanStart, AcquireSessionRequest.opening, hn]
        exact .failed rfl
      · simp only [acquireStep, hc, if_true, replaceSession_eq hn hc cens.sessions]
        exact .replaced rfl
    | false =>
      simp only [acquireStep, hc, Bool.false_eq_true, if_false]
      exact .of_takeOver openResp rfl rfl
  | replaced openResp => exact .of_takeOver openResp rfl rfl
  | owned openResp previousOwner => exact .mirrored
  | returned res => cases hr

end Moves

section System

variable {ι : Type u} [DecidableEq ι] (clock : Nat) (requests : ι → AcquireSessionRequest)

/-- A step is the next store operation of one call. -/
def acquisitions : System (Acquisitions ι) ι where
  step s i :=
    if (s.phases i).isReturned then none
    else
      let (centers, phase) := acquireStep clock (requests i) (s.centers, s.phases i)
      some { centers := centers, phases := Function.update s.phases i phase }

def Acquisitions.before (centers : Centers) : Acquisitions ι where
  centers := centers
  phases := fun _ => .called

end System

namespace Acquisitions

variable {ι : Type u} {clock : Nat} {requests : ι → AcquireSessionRequest} {cid : ClientID}
  {s next : Acquisitions ι}

/-- The condition on a step: a token is mirrored only while the call that is recorded as owner has
not mirrored its own. -/
def MirrorsInTime (requests : ι → AcquireSessionRequest) (clientID : ClientID) (s : Acquisitions ι)
    (i : ι) : Prop :=
  (s.phases i).isOwned = true →
    ∃ j, (s.phases j).isOwned = true ∧
      s.centers.sessions.owners clientID = some (requests j).owner

/-- The recorded owner is a call that has still to mirror its token or whose token is mirrored. -/
structure Agreeing (requests : ι → AcquireSessionRequest) (clientID : ClientID)
    (s : Acquisitions ι) : Prop where
  live : ∀ i, (s.phases i).hasOpened = true →
    clientID ≠ "" ∧ s.centers.sessions.Live clientID
  recorded : ∀ i, (s.phases i).hasTakenOver = true →
    ∃ j, s.centers.sessions.owners clientID = some (requests j).owner ∧
      ((s.phases j).isOwned = true ∨ ((s.phases j).hasTakenOver = true ∧
        s.centers.subscriptions.getOwnerToken clientID = (requests j).ownerToken))

theorem Agreeing.before {cens : Centers} :
    (Acquisitions.before cens : Acquisitions ι).Agreeing requests cid where
  live _ opened := nomatch opened
  recorded _ taken := nomatch taken

section Step

variable [DecidableEq ι] {i : ι} {cens : Centers} {phase : AcquirePhase}

theorem phase_update {prop : AcquirePhase → Bool} {k : ι}
    (hh : prop (Function.update s.phases i phase k) = true) :
    prop phase = true ∨ prop (s.phases k) = true := by
  by_cases own : k = i
  · subst own
    rw [update_self] at hh
    exact .inl hh
  · rw [update_of_ne own] at hh
    exact .inr hh

theorem Agreeing.keep (agreeing : s.Agreeing requests cid)
    (early : (s.phases i).hasTakenOver = false) (notYet : phase.hasTakenOver = false)
    (live : ∀ k, (Function.update s.phases i phase k).hasOpened = true →
      cid ≠ "" ∧ cens.sessions.Live cid)
    (owners : ∀ k, (s.phases k).hasTakenOver = true →
      cens.sessions.owners cid = s.centers.sessions.owners cid)
    (tokens : cens.subscriptions = s.centers.subscriptions) :
    Agreeing requests cid ⟨cens, Function.update s.phases i phase⟩ where
  live := live
  recorded k taken := by
    have before : (s.phases k).hasTakenOver = true :=
      (phase_update taken).resolve_left (by simp [notYet])
    obtain ⟨j, owner, state⟩ := agreeing.recorded k before
    have takenOver : (s.phases j).hasTakenOver = true :=
      state.elim AcquirePhase.hasTakenOver_of_isOwned And.left
    have other : j ≠ i := by
      rintro rfl
      simp [early] at takenOver
    refine ⟨j, (owners k before).trans owner, ?_⟩
    dsimp only
    rwa [update_of_ne other, tokens]

theorem Agreeing.moves (ha : s.Agreeing requests cid)
    (he : (requests i).clientID = cid) (met : s.MirrorsInTime requests cid i)
    {before : AcquirePhase} (hc : s.phases i = before)
    (hm : AcquireMoves (requests i) s.centers before cens phase) :
    Agreeing requests cid ⟨cens, Function.update s.phases i phase⟩ := by
  subst he
  cases hm with
  | failed early =>
    refine ha.keep (hc ▸ early) rfl (fun k open' => ?_) (fun _ _ => rfl) rfl
    exact ha.live k ((phase_update open').resolve_left (by simp [AcquirePhase.hasOpened]))
  | opened hn hl =>
    refine ha.keep (by rw [hc]; rfl) rfl
      (fun _ _ => ⟨hn, Core.live_setSession _ hl⟩) (fun k ht => ?_) rfl
    -- a session that another call opened is not expired
    have open' := (ha.live k (AcquirePhase.hasOpened_of_hasTakenOver ht)).2
    rw [open'.dropExpired, Core.setSession_owners]
  | replaced hl =>
    have hn := (ha.live i (by rw [hc]; rfl)).1
    exact ha.keep (by rw [hc]; rfl) rfl
      (fun _ _ => ⟨hn, Core.live_setSession _ hl⟩) (fun _ _ => rfl) rfl
  | tookOver open' early =>
    refine ⟨fun k _ => ha.live i (hc ▸ open'), fun k _ => ⟨i, ?_, .inl ?_⟩⟩
    · exact Core.setOwner_owners_self _ _ _
    · simp [AcquirePhase.isOwned]
  | @mirrored openResp previousOwner =>
    obtain ⟨j, ho, owner⟩ := met (by rw [hc]; rfl)
    have open' := ha.live i (by rw [hc]; rfl)
    refine ⟨fun k _ => open', fun k _ => ⟨j, owner, ?_⟩⟩
    dsimp only
    by_cases own : j = i
    · subst own
      right
      simp [AcquirePhase.hasTakenOver, MemorySubCenter.getOwnerToken,
        MemorySubCenter.setClientOwnerToken, MemorySubCenter.setOwnerToken, open'.1]
    · rw [update_of_ne own]
      exact .inl ho

theorem Agreeing.step (ha : s.Agreeing requests cid)
    (he : (requests i).clientID = cid) (met : s.MirrorsInTime requests cid i)
    (ht : (acquisitions clock requests).step s i = some next) :
    next.Agreeing requests cid := by
  obtain ⟨hr, hm⟩ := Option.ite_none_left_eq_some.mp ht
  cases hm
  exact ha.moves he met rfl (.of_step (Bool.eq_false_iff.mpr hr))

end Step

end Acquisitions

/-- Calls that mirror in time leave one token in both centers. -/
theorem owner_tokens_agree {ι : Type u} [DecidableEq ι] [Nonempty ι] {clock : Nat}
    {requests : ι → AcquireSessionRequest} {clientID : ClientID} {centers : Centers}
    {s : Acquisitions ι} (same : ∀ i, (requests i).clientID = clientID)
    (reached : (acquisitions clock requests).Reached
      (Acquisitions.MirrorsInTime requests clientID) (.before centers) s)
    (returned : ∀ i, ∃ response, s.phases i = .returned (.ok response)) :
    (s.centers.sessions.getSessionOwner clientID).map SessionOwner.ownerToken =
      some (s.centers.subscriptions.getOwnerToken clientID) := by
  have ha : s.Agreeing requests clientID :=
    reached.invariant .before fun _ i _ ha met ht => ha.step (same i) met ht
  obtain ⟨i⟩ := ‹Nonempty ι›
  obtain ⟨response, hd⟩ := returned i
  obtain ⟨j, owner, hs⟩ := ha.recorded i (by rw [hd]; rfl)
  obtain ⟨response, hd⟩ := returned j
  rcases hs with ho | ⟨-, hm⟩
  · rw [hd] at ho
    cases ho
  · rw [Core.getSessionOwner, owner, hm]
    rfl

/-! ### Two calls -/

def twoConnections (second : Bool) : AcquireSessionRequest :=
  { newConnection with ownerToken := if second then "b" else "a" }

def emptyCenters : Centers := ⟨.empty, .empty⟩

/-- One call after the other. -/
theorem owner_tokens_agree_in_turn : ∃ s, (acquisitions 0 twoConnections).Reached
        (Acquisitions.MirrorsInTime twoConnections "client") (.before emptyCenters) s ∧
      (s.centers.sessions.getSessionOwner "client").map SessionOwner.ownerToken =
        some (s.centers.subscriptions.getOwnerToken "client") := by
  have he : ∃ s, (acquisitions 0 twoConnections).run (.before emptyCenters)
      [false, false, false, true, true, true] = some s ∧
      ∀ i, ∃ response, s.phases i = .returned (.ok response) :=
    ⟨_, rfl, fun i => by cases i <;> exact ⟨_, rfl⟩⟩
  obtain ⟨s, he, back⟩ := he
  have hr : (acquisitions 0 twoConnections).Reached
      (Acquisitions.MirrorsInTime twoConnections "client") (.before emptyCenters) s := by
    refine System.reached_of_run he ⟨fun ho => (nomatch ho),
      fun ho => (nomatch ho), fun _ => ⟨false, rfl, rfl⟩, fun ho => (nomatch ho),
      fun ho => (nomatch ho), fun _ => ⟨true, rfl, rfl⟩, trivial⟩
  exact ⟨s, hr, owner_tokens_agree (fun i => by cases i <;> rfl) hr back⟩

/-- The second call takes over and mirrors while the first has taken over and not mirrored. -/
theorem owner_tokens_differ :
    ∃ s, (acquisitions 0 twoConnections).Reached (fun _ _ => True) (.before emptyCenters) s ∧
      (∀ i, ∃ response, s.phases i = .returned (.ok response)) ∧
      (s.centers.sessions.getSessionOwner "client").map SessionOwner.ownerToken = some "b" ∧
      s.centers.subscriptions.getOwnerToken "client" = "a" := by
  have he : ∃ s, (acquisitions 0 twoConnections).run (.before emptyCenters)
      [false, false, true, true, true, false] = some s ∧
      (∀ i, ∃ response, s.phases i = .returned (.ok response)) ∧
      (s.centers.sessions.getSessionOwner "client").map SessionOwner.ownerToken = some "b" ∧
      s.centers.subscriptions.getOwnerToken "client" = "a" :=
    ⟨_, rfl, fun i => by cases i <;> exact ⟨_, rfl⟩, rfl, rfl⟩
  obtain ⟨s, he, ended⟩ := he
  exact ⟨s, System.reached_of_run he (.of_forall fun _ _ _ => trivial), ended⟩

end SkyTree.StateRouter
