import SkyTree.Client.FlowControl

/-!
# Conservation of flow tokens

Every token of the Receive Maximum is in the bucket, held by an unacknowledged entry, or in
the hand of a goroutine. A step moves at most one token between these places, provided
that it finds the entry whose token it is about to move unacknowledged: the calls that
return the token of a dropped packet do not look at `Acked`.
-/

namespace SkyTree.Client

open Foundation Delivery Session Mqtt Option KeyedTable Downlink

def InflightEntry.holdsToken (entry : InflightEntry) : Bool := entry.flowTokenHeld && !entry.acked

namespace NextStep

/-- The goroutine has taken a token that is neither in the bucket nor in an entry. -/
def inHand : NextStep → Bool
  | .put _ | .putTokenAndClose | .markFlowTokenHeld _ | .putAckToken | .putToken => true
  | _ => false

def closes : NextStep → Bool
  | .putTokenAndClose | .close => true
  | _ => false

end NextStep

namespace Downlink

variable (downlink : Downlink)

def tokenSum : Nat := downlink.bucket.tokens + downlink.inflight.count InflightEntry.holdsToken

def findsToken : NextStep → Bool
  | .delete packetID => (downlink.inflight.get packetID).all InflightEntry.holdsToken
  | .markFlowTokenHeld packetID =>
    (downlink.inflight.get packetID).all fun entry => entry.flowTokenHeld || !entry.acked
  | .deleteResent packetID tokenAcquired =>
    (downlink.inflight.get packetID).all InflightEntry.holdsToken &&
      (!tokenAcquired || (downlink.inflight.get packetID).isSome)
  | .clearFlowTokenHeld packetID => (downlink.inflight.get packetID).any InflightEntry.holdsToken
  | _ => true

end Downlink

namespace FlowControl

def FindsToken (s : FlowControl) : FlowLabel → Prop
  | .proceed thread _ =>
    (s.operations.get thread).all (fun half => s.downlink.findsToken half.next) = true
  | _ => True

instance (s : FlowControl) : (label : FlowLabel) → Decidable (s.FindsToken label)
  | .proceed _ _ => inferInstanceAs (Decidable (_ = true))
  | .deliver .. | .sendRetained .. | .retransmit | .puback _ | .pubrec .. | .pubcomp .. =>
    isTrue trivial

def inHand (s : FlowControl) : Nat := s.operations.count fun half => half.next.inHand

end FlowControl

namespace Downlink

variable {down : Downlink} {pid : PacketID} {ent : InflightEntry}

theorem tryGetToken_tokenSum {bkt : Bucket} (ht : down.bucket.tryGetToken = some bkt) :
    tokenSum { down with bucket := bkt } + 1 = down.tokenSum := by
  obtain ⟨-, tokens⟩ := Bucket.tryGetToken_eq_some ht
  simp only [tokenSum]
  omega

theorem erase_tokenSum (hf : down.inflight.get pid = some ent) (hh : ent.holdsToken = true) :
    tokenSum { down with inflight := down.inflight.erase pid } + 1 = down.tokenSum := by
  have hc := down.inflight.count_erase_of_get InflightEntry.holdsToken hf
  simp only [hh, Bool.toNat_true] at hc
  simp only [tokenSum]
  omega

theorem put_tokenSum (ha : down.inflight.get ent.packetID = none) :
    tokenSum { down with inflight := down.inflight.put ent } =
      down.tokenSum + ent.holdsToken.toNat := by
  have hc := down.inflight.count_put_of_absent InflightEntry.holdsToken ha
  simp only [tokenSum]
  omega

theorem modify_tokenSum {f : InflightEntry → InflightEntry}
    (hk : ∀ ent, (f ent).packetID = ent.packetID)
    (hf : down.inflight.get pid = some ent) :
    tokenSum { down with inflight := down.inflight.modify pid f hk } +
      ent.holdsToken.toNat = down.tokenSum + (f ent).holdsToken.toNat := by
  have hc := down.inflight.count_modify_of_get InflightEntry.holdsToken hk hf
  simp only [tokenSum]
  omega

theorem setFlowTokenHeld_tokenSum (held : Bool)
    (hf : down.inflight.get pid = some ent) (hw : ent.acked = false) :
    tokenSum { down with inflight := down.inflight.setFlowTokenHeld pid held } +
      ent.flowTokenHeld.toNat = down.tokenSum + held.toNat := by
  have hm := modify_tokenSum (f := fun ent => { ent with flowTokenHeld := held }) (fun _ => rfl) hf
  simp only [InflightEntry.holdsToken, hw, Bool.not_false, Bool.and_true] at hm
  exact hm

theorem setAcked_tokenSum (hf : down.inflight.get pid = some ent) :
    tokenSum { down with inflight := down.inflight.setAcked pid } +
      ent.holdsToken.toNat = down.tokenSum := by
  have hm := modify_tokenSum (f := fun ent => { ent with acked := true }) (fun _ => rfl) hf
  have hg : InflightEntry.holdsToken { ent with acked := true } = false := Bool.and_false _
  rw [hg] at hm
  exact hm

theorem updateState_tokenSum (state : InflightState) (hf : down.inflight.get pid = some ent) :
    tokenSum { down with inflight := down.inflight.updateState pid state } = down.tokenSum := by
  have hm := modify_tokenSum (f := fun ent => { ent with state := state }) (fun _ => rfl) hf
  exact Nat.add_right_cancel hm

theorem advanceAcked_tokenSum (adv : Position → Bool) :
    (down.advanceAckedOutgoingInflight adv).tokenSum = down.tokenSum := by
  unfold tokenSum advanceAckedOutgoingInflight
  rw [foldl_advanceOne_inflight, foldl_advanceOne_bucket]
  congr 1
  apply count_filter
  intro ent hs hh
  simp only [InflightEntry.holdsToken, Bool.and_eq_true, Bool.not_eq_true'] at hh
  have hk := InflightTable.popAckedInOrder_keeps hs hh.2
  simpa [InflightTable.popAckedInOrder, hs] using hk

variable {outcome : Outcome} {effect : Effect}

theorem perform_write (hd : down.perform outcome (.write pid) = some effect) :
    effect.downlink = down ∧ effect.next.any NextStep.inHand = false := by
  simp only [perform] at hd
  split at hd
  all_goals cases hd
  all_goals exact ⟨rfl, rfl⟩

theorem perform_resend {acq : Bool} (hd : down.perform outcome (.resend ent acq) = some effect) :
    effect.downlink = down ∧ effect.next.any NextStep.inHand = false := by
  simp only [perform] at hd
  split at hd
  · cases hd
    exact ⟨rfl, rfl⟩
  · split at hd
    all_goals cases hd
    all_goals exact ⟨rfl, rfl⟩
  · obtain ⟨-, he⟩ := ite_none_left_eq_some.mp hd
    cases he
    cases acq <;> exact ⟨rfl, rfl⟩
  · cases hd
    exact ⟨rfl, rfl⟩

variable {next : NextStep}

section

variable (hd : down.perform outcome next = some effect)

include hd

/-- A step moves one token at most: what leaves the bucket and the entries is in hand. -/
theorem perform_tokenSum (hb : down.tokenSum + next.inHand.toNat ≤ down.bucket.capacity)
    (finds : down.findsToken next = true) (hl : effect.live = true)
    (hs : (effect.next.any NextStep.closes) = false) :
    effect.downlink.tokenSum + (effect.next.any NextStep.inHand).toNat =
      down.tokenSum + next.inHand.toNat := by
  have hr : next.inHand = true → down.bucket.tokens < down.bucket.capacity := by
    intro ht
    simp only [ht, Bool.toNat_true, tokenSum] at hb
    omega
  cases next with
  | getToken outgoing =>
    obtain ⟨bkt, ht, rfl⟩ := map_eq_some_iff.mp hd
    exact tryGetToken_tokenSum ht
  | put outgoing =>
    cases hd
    cases ha : down.inflight.get outgoing.entry.packetID with
    | some old => simp [ha, NextStep.closes] at hs
    | none =>
      rw [put_tokenSum ha]
      cases outgoing <;> rfl
  | putTokenAndClose =>
    cases hd
    cases hs
  | close =>
    cases hd
    cases hl
  | write pid =>
    obtain ⟨he, hu⟩ := perform_write hd
    rw [he, hu]
    rfl
  | delete pid =>
    simp only [perform] at hd
    split at hd
    · cases hd
      rfl
    · next ent hf =>
        cases hd
        simp only [findsToken, hf, all_some] at finds
        exact erase_tokenSum hf finds
  | tryGetToken pid =>
    simp only [perform] at hd
    split at hd
    · cases hd
      rfl
    · next bkt ht =>
        cases hd
        exact tryGetToken_tokenSum ht
  | markFlowTokenHeld pid =>
    simp only [perform] at hd
    split at hd
    · cases hd
      rfl
    · next ent selected =>
        cases hd
        obtain ⟨hf, noTok⟩ := filter_eq_some_iff.mp selected
        simp only [Bool.not_eq_true'] at noTok
        simp only [findsToken, hf, all_some, noTok, Bool.false_or, Bool.not_eq_true'] at finds
        have hm := setFlowTokenHeld_tokenSum true hf finds
        rw [noTok] at hm
        exact hm
  | resend ent acq =>
    obtain ⟨he, hu⟩ := perform_resend hd
    rw [he, hu]
    rfl
  | deleteResent pid acq =>
    simp only [perform] at hd
    simp only [findsToken, Bool.and_eq_true] at finds
    split at hd
    · next ha =>
        cases hd
        cases acq with
        | false => rfl
        | true => simp [ha] at finds
    · next ent hf =>
        cases hd
        simp only [hf, all_some] at finds
        exact erase_tokenSum hf finds.1
  | clearFlowTokenHeld pid =>
    cases hd
    cases hf : down.inflight.get pid with
    | none => simp [findsToken, hf] at finds
    | some ent =>
      simp only [findsToken, hf, any_some, InflightEntry.holdsToken,
        Bool.and_eq_true, Bool.not_eq_true'] at finds
      have hm := setFlowTokenHeld_tokenSum false hf finds.2
      rw [finds.1] at hm
      exact hm
  | putAckToken | putToken =>
    cases hd
    have room := min_eq_left (Nat.succ_le_of_lt (hr rfl))
    have put : down.putToken.tokenSum = down.tokenSum + 1 := by
      simp only [tokenSum, Downlink.putToken, Bucket.putToken, room]
      omega
    exact put
  | advanceAcked =>
    cases hd
    exact congrArg (· + 0) (advanceAcked_tokenSum outcome.advances)

theorem perform_capacity : effect.downlink.bucket.capacity = down.bucket.capacity := by
  cases next with
  | getToken outgoing =>
    obtain ⟨bkt, ht, rfl⟩ := map_eq_some_iff.mp hd
    exact (Bucket.tryGetToken_eq_some ht).1
  | tryGetToken pid =>
    simp only [perform] at hd
    split at hd
    · cases hd
      rfl
    · next bkt ht =>
        cases hd
        exact (Bucket.tryGetToken_eq_some ht).1
  | advanceAcked =>
    cases hd
    unfold advanceAckedOutgoingInflight
    rw [foldl_advanceOne_bucket]
  | write pid => rw [(perform_write hd).1]
  | resend ent acq => rw [(perform_resend hd).1]
  | _ =>
    simp only [perform] at hd
    try split at hd
    all_goals cases hd
    all_goals rfl

/-- An operation that ends the connection goes on until it has ended it. -/
theorem perform_closes (hc : next.closes = true) (hl : effect.live = true) :
    effect.next.any NextStep.closes = true := by
  cases next with
  | putTokenAndClose =>
    cases hd
    rfl
  | close =>
    cases hd
    cases hl
  | _ => cases hc

end

end Downlink

namespace FlowControl

structure Conserves (capacity : Nat) (s : FlowControl) : Prop where
  window : s.downlink.bucket.capacity = capacity
  conserved : s.live = true → (∀ half ∈ s.operations, half.next.closes = false) →
    s.downlink.tokenSum + s.inHand = capacity

variable {s next : FlowControl} {thread : Thread} {cap : Nat}

section Operations

theorem continueWith_count (p : NextStep → Bool) {half : HalfDone}
    (hc : s.operations.get thread = some half) (after : Option NextStep) :
    (s.continueWith thread after).count (fun half => p half.next) + (p half.next).toNat =
      s.operations.count (fun half => p half.next) + (after.any p).toNat := by
  cases after with
  | none => exact s.operations.count_erase_of_get _ hc
  | some step => exact s.operations.count_put_of_get _ (v := ⟨thread, step⟩) hc

theorem mem_continueWith_of_ne {half : HalfDone} (hm : half ∈ s.operations)
    (hne : half.thread ≠ thread) (after : Option NextStep) :
    half ∈ s.continueWith thread after := by
  cases after with
  | none => exact mem_erase.mpr ⟨hm, hne⟩
  | some step => exact mem_put.mpr (.inl ⟨hm, hne⟩)

theorem begin_conserves (hc : s.Conserves cap) (hi : s.idle thread)
    {step : NextStep} {down : Downlink}
    (capEq : down.bucket.capacity = s.downlink.bucket.capacity)
    (moved : down.tokenSum + step.inHand.toNat = s.downlink.tokenSum) :
    Conserves cap { s with
      downlink := down
      operations := s.continueWith thread (some step) } := by
  refine ⟨capEq.trans hc.window, fun hl hs => ?_⟩
  have hb : ∀ half ∈ s.operations, half.next.closes = false := by
    intro half hm
    exact hs half (mem_continueWith_of_ne hm (get_eq_none_iff.mp hi half hm) _)
  have kept := hc.conserved hl hb
  have begun := s.operations.count_put_of_absent (fun half => half.next.inHand)
    (v := ⟨thread, step⟩) hi
  unfold inHand continueWith at *
  dsimp only at begun ⊢
  omega

theorem proceed_conserves {outcome : Outcome} (keeps : s.Conserves cap)
    (hf : s.FindsToken (.proceed thread outcome)) (alive : s.live = true)
    (ht : s.proceed thread outcome = some next) : next.Conserves cap := by
  unfold proceed at ht
  split at ht
  · cases ht
  · next half hc =>
      obtain ⟨effect, hd, rfl⟩ := map_eq_some_iff.mp ht
      obtain ⟨hm, hn⟩ := get_eq_some_iff.mp hc
      refine ⟨(perform_capacity hd).trans keeps.window, fun hl stays => ?_⟩
      dsimp only at hl stays
      have nextStays : effect.next.any NextStep.closes = false := by
        cases ha : effect.next with
        | none => rfl
        | some step =>
          rw [ha] at stays
          exact stays ⟨thread, step⟩ (mem_put.mpr (.inr rfl))
      have stayed : ∀ o ∈ s.operations, o.next.closes = false := by
        intro o hs
        by_cases own : o.thread = thread
        · obtain rfl := s.operations.eq_of_key_eq hs hm (own.trans hn.symm)
          cases closes : o.next.closes with
          | false => rfl
          | true => exact absurd (perform_closes hd closes hl) (by simp [nextStays])
        · exact stays o (mem_continueWith_of_ne hs own _)
      have kept := keeps.conserved alive stayed
      simp only [FindsToken, hc, all_some] at hf
      have inHands := continueWith_count NextStep.inHand hc effect.next
      have own := s.operations.count_erase_of_get (fun half => half.next.inHand) hc
      have moved := perform_tokenSum hd (by rw [keeps.window]; unfold inHand at kept; omega)
        hf hl nextStays
      unfold inHand at kept ⊢
      dsimp only
      omega

end Operations

section Steps

theorem send_conserves {outgoing : Outgoing} (hc : s.Conserves cap)
    (ht : s.send thread outgoing = some next) : next.Conserves cap := by
  obtain ⟨⟨hi, -⟩, rfl⟩ := of_guard ht
  exact begin_conserves hc hi rfl rfl

theorem retransmit_conserves (hc : s.Conserves cap)
    (ht : s.retransmit = some next) : next.Conserves cap := by
  obtain ⟨hi, he⟩ := ite_none_right_eq_some.mp ht
  obtain ⟨ent, -, rfl⟩ := map_eq_some_iff.mp he
  apply begin_conserves hc hi rfl
  cases ent.flowTokenHeld <;> rfl

theorem acknowledge_conserves {pid : PacketID} {qos : Nat} (hc : s.Conserves cap)
    (ht : s.acknowledge pid qos = some next) : next.Conserves cap := by
  obtain ⟨hi, hh⟩ := ite_none_right_eq_some.mp ht
  split at hh
  · cases hh
    exact hc
  · next ent hit =>
      cases hh
      obtain ⟨hf, hw⟩ := filter_eq_some_iff.mp hit
      refine begin_conserves hc hi ?_ ?_
      · rfl
      have hm := setAcked_tokenSum hf
      have hu : ent.acked = false := by simpa using (Bool.and_eq_true_iff.mp hw).2
      rw [InflightEntry.holdsToken, hu, Bool.not_false, Bool.and_true] at hm
      rw [← hm]
      cases ent.flowTokenHeld <;> rfl

theorem receivePubRec_conserves {pid : PacketID} {code : Nat} {written : Bool}
    (hc : s.Conserves cap) (ha : s.live = true)
    (ht : s.receivePubRec pid code written = some next) :
    next.Conserves cap := by
  cases fails : mqtt5ReasonCodeIsError code with
  | true =>
    simp only [receivePubRec, fails, if_true] at ht
    exact acknowledge_conserves hc ht
  | false =>
    simp only [receivePubRec, fails] at ht
    obtain ⟨-, rfl⟩ := of_guard ht
    rcases s.downlink.handlePubRec_success pid (fun _ => false) fails with
      ⟨-, hu, -⟩ | ⟨target, -, hm, hit⟩
    · rw [hu]
      exact ⟨hc.window, fun _ => hc.conserved ha⟩
    · obtain ⟨hf, -⟩ := filter_eq_some_iff.mp hit
      rw [hm]
      refine ⟨hc.window, fun _ hs => ?_⟩
      rw [updateState_tokenSum _ hf]
      exact hc.conserved ha hs

theorem step_conserves {label : FlowLabel} (hc : s.Conserves cap)
    (hf : s.FindsToken label) (ht : flowControl.step s label = some next) :
    next.Conserves cap := by
  obtain ⟨ha, hh⟩ := ite_none_right_eq_some.mp ht
  cases label with
  | deliver task pid now =>
    obtain ⟨-, hs⟩ := ite_none_left_eq_some.mp hh
    exact send_conserves hc hs
  | sendRetained subscribe pid qos ts mid packet =>
    obtain ⟨-, hs⟩ := ite_none_right_eq_some.mp hh
    exact send_conserves hc hs
  | retransmit => exact retransmit_conserves hc hh
  | puback pid | pubcomp pid code => exact acknowledge_conserves hc hh
  | pubrec pid code written => exact receivePubRec_conserves hc ha hh
  | proceed thread outcome => exact proceed_conserves hc hf ha hh

end Steps

section Restore

variable {environment : RestoreEnvironment} {queue : ClientQueue} {rst : Restoring}

structure Full (capacity : Nat) (restoring : Restoring) : Prop where
  window : restoring.bucket.capacity = capacity
  tokens : restoring.bucket.tokens + restoring.inflight.count InflightEntry.holdsToken = capacity

theorem register_full {ent : InflightEntry} (hf : Full cap rst)
    (ha : rst.inflight.get ent.packetID = none) (hw : ent.acked = false) :
    Full cap (rst.register ent).1 := by
  have ht := hf.tokens
  unfold Restoring.register
  split
  · next bkt taken =>
      obtain ⟨window, hs⟩ := Bucket.tryGetToken_eq_some taken
      have hc := rst.inflight.count_put_of_absent InflightEntry.holdsToken ha
        (v := { ent with flowTokenHeld := true })
      have hh : InflightEntry.holdsToken { ent with flowTokenHeld := true } = true := by
        simp [InflightEntry.holdsToken, hw]
      rw [hh, Bool.toNat_true] at hc
      refine ⟨window.trans hf.window, ?_⟩
      dsimp only
      omega
  · have hc := rst.inflight.count_put_of_absent InflightEntry.holdsToken ha
      (v := { ent with flowTokenHeld := false })
    exact ⟨hf.window, (congrArg (rst.bucket.tokens + ·) hc).trans ht⟩

theorem transmit_full {written : Bool} {msg : UnfinishedMessage} {ent : InflightEntry}
    (hf : Full cap rst) :
    Full cap (rst.transmit written msg ent) := by
  unfold Restoring.transmit
  split_ifs
  · exact ⟨hf.window, hf.tokens⟩
  · exact ⟨hf.window, hf.tokens⟩
  · exact ⟨hf.window, hf.tokens⟩
  · exact hf

theorem restoreOne_full {msg : UnfinishedMessage} (hf : Full cap rst)
    (ha : rst.inflight.get msg.packetID = none) :
    Full cap (restoreOneOutgoingInflight environment queue rst msg) := by
  unfold restoreOneOutgoingInflight
  split
  · split
    · exact hf
    · next base built =>
        have hr := rebuilt_of_restoredEntry built
        have registered := register_full hf (hr.packetID ▸ ha) hr.waiting
        dsimp only
        split
        · exact transmit_full registered
        · exact registered
  · exact hf

theorem restore_full (msgs : List UnfinishedMessage) {ear : List UnfinishedMessage}
    (hr : RestoredFrom environment queue ear rst)
    (hd : ((ear ++ msgs).map UnfinishedMessage.packetID).Nodup)
    (hf : Full cap rst) :
    Full cap (msgs.foldl (restoreOneOutgoingInflight environment queue) rst) := by
  induction msgs generalizing ear rst with
  | nil => exact hf
  | cons msg rest ih =>
    have hu := unused_of_distinct hd
    have ha : rst.inflight.get msg.packetID = none := by
      apply get_eq_none_iff.mpr
      intro ent hs he
      obtain ⟨source, hm, base, held, hb, rfl⟩ := hr.origin ent hs
      have ho : base.packetID = source.packetID := (rebuilt_of_restoredEntry hb).packetID
      exact hu (he ▸ ho ▸ List.mem_map_of_mem hm)
    rw [List.append_cons] at hd
    rw [List.foldl_cons]
    exact ih (restoreOne_restoredFrom hr hu) hd (restoreOne_full hf ha)

theorem start_conserves (cap : Nat) (env : RestoreEnvironment) (que : ClientQueue)
    (saved : KeyedTable UnfinishedMessage.packetID) :
    (start cap env que saved).Conserves cap := by
  have hd := ((List.take_sublist env.limit _).map _).nodup (outgoing_distinct saved.distinct)
  have he : Full cap { inflight := .empty, bucket := .new cap } := ⟨rfl, rfl⟩
  have hf := restore_full _ (restoredFrom_start env que (.new cap)) hd he
  exact ⟨hf.window, fun _ _ => hf.tokens⟩

end Restore

section Runs

variable {environment : RestoreEnvironment} {queue : ClientQueue}
  {saved : KeyedTable UnfinishedMessage.packetID}

/-- Whenever no operation is half done, the tokens in the bucket and the unacknowledged
entries that hold one make up the Receive Maximum. -/
theorem tokens_conserved
    (reached : flowControl.Reached FindsToken (start cap environment queue saved) s)
    (live : s.live = true) (quiet : s.operations = .empty) :
    s.downlink.bucket.tokens + s.downlink.inflight.count InflightEntry.holdsToken = cap ∧
      s.downlink.inflight.count InflightEntry.holdsToken ≤ cap := by
  have hs : ∀ half ∈ s.operations, half.next.closes = false := by
    rw [quiet]
    exact fun _ none => nomatch none
  have hc := (reached.invariant (start_conserves _ _ _ _) fun _ _ _ hc hf ht =>
    step_conserves hc hf ht).conserved live hs
  have hu : s.inHand = 0 := by
    unfold inHand
    rw [quiet]
    rfl
  rw [hu, Nat.add_zero, Downlink.tokenSum] at hc
  exact ⟨hc, by omega⟩

end Runs

def twoStored (qos : Int) : ClientQueue :=
  ((ClientQueue.empty.appendTask (Outbound.queued qos 1)).1.appendTask (Outbound.queued qos 2)).1

def savedMessage (number : Nat) : UnfinishedMessage where
  messageID := number
  packetID := number
  qos := 2
  state := .waitingPubRec
  isOutgoing := true
  firstPubTime := number

def registers (number : Nat) : List FlowLabel :=
  [.deliver (Outbound.queued 1 number) number 1, .proceed .runner {}, .proceed .runner {}]

/-- A task over the peer's packet size is dropped next to a restored entry. -/
theorem tokens_conserved_oversized : ∃ s, flowControl.run
        (start 2 { now := 1, limit := 10 } (twoStored 2) (KeyedTable.empty.put (savedMessage 1)))
        (registers 2 ++ [.proceed .runner { write := .oversized }, .proceed .runner {},
          .proceed .runner {}]) = some s ∧
      s.downlink.bucket.tokens + s.downlink.inflight.count InflightEntry.holdsToken = 2 ∧
      s.downlink.inflight.count InflightEntry.holdsToken ≤ 2 := by
  have he : ∃ s, flowControl.run
      (start 2 { now := 1, limit := 10 } (twoStored 2) (KeyedTable.empty.put (savedMessage 1)))
      (registers 2 ++ [.proceed .runner { write := .oversized }, .proceed .runner {},
        .proceed .runner {}]) = some s ∧ s.live = true ∧ s.operations = .empty := ⟨_, rfl, rfl, rfl⟩
  obtain ⟨s, he, hl, hq⟩ := he
  have met : flowControl.Meets FindsToken
      (start 2 { now := 1, limit := 10 } (twoStored 2) (KeyedTable.empty.put (savedMessage 1)))
      (registers 2 ++ [.proceed .runner { write := .oversized }, .proceed .runner {},
        .proceed .runner {}]) := by decide
  exact ⟨s, he, tokens_conserved (System.reached_of_run he met) hl hq⟩

/-- A PUBACK that arrives before an oversized PUBLISH is dropped creates a token: the entry
behind an unacknowledged one is still in the table when it is deleted. A negative PUBREC
between taking a token for a restored entry and marking the entry loses one. -/
theorem tokens_not_conserved :
    (∃ s, flowControl.run (start 2 { now := 1, limit := 10 } (twoStored 1) .empty)
        (registers 1 ++ [.proceed .runner {}] ++ registers 2 ++
          [.puback 2, .proceed .handler {}, .proceed .handler {},
            .proceed .runner { write := .oversized }, .proceed .runner {}, .proceed .runner {}]) =
        some s ∧
      s.live = true ∧ s.operations = .empty ∧ s.downlink.bucket.tokens = 2 ∧
      s.downlink.inflight.count InflightEntry.holdsToken = 1) ∧
    ∃ s, flowControl.run (start 1 { now := 1, limit := 10 } (twoStored 2)
          ((KeyedTable.empty.put (savedMessage 1)).put (savedMessage 2)))
        [.pubrec 1 0 true, .pubcomp 1 0, .proceed .handler {}, .proceed .handler {},
          .retransmit, .proceed .runner {}, .pubrec 2 128 true, .proceed .runner {},
          .proceed .handler {}, .proceed .runner {}] = some s ∧
      s.live = true ∧ s.operations = .empty ∧ s.downlink.bucket.tokens = 0 ∧
      s.downlink.inflight = .empty :=
  ⟨⟨_, rfl, rfl, rfl, rfl, rfl⟩, _, rfl, rfl, rfl, rfl, rfl⟩

end FlowControl

end SkyTree.Client
