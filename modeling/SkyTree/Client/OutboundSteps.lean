import SkyTree.Client.Outbound

/-!
# What the steps of the outbound side can do

One inversion lemma for all steps, and what they have in common: an entry keeps its
task and only moves on in its exchange, and apart from appends the queue only loses
tasks.
-/

namespace SkyTree.Client

open Foundation Delivery Session Mqtt Option KeyedTable InflightTable

/-- The same entry, possibly further in its exchange. -/
structure InflightEntry.Descends (old new : InflightEntry) : Prop where
  packetID : new.packetID = old.packetID
  qos : new.qos = old.qos
  position : new.position = old.position
  messageID : new.messageID = old.messageID
  retained : new.retained = old.retained
  publishPacket : new.publishPacket = old.publishPacket
  acked : new.acked = false → old.acked = false
  state : new.state = old.state ∨ new.state = .waitingPubComp

theorem InflightEntry.Descends.refl (ent : InflightEntry) : ent.Descends ent :=
  ⟨rfl, rfl, rfl, rfl, rfl, rfl, id, .inl rfl⟩

theorem InflightEntry.Descends.trans {old middle new : InflightEntry}
    (first : old.Descends middle) (second : middle.Descends new) : old.Descends new where
  packetID := second.packetID.trans first.packetID
  qos := second.qos.trans first.qos
  position := second.position.trans first.position
  messageID := second.messageID.trans first.messageID
  retained := second.retained.trans first.retained
  publishPacket := second.publishPacket.trans first.publishPacket
  acked waiting := first.acked (second.acked waiting)
  state := by
    rcases second.state with same | done
    · rw [same]
      exact first.state
    · exact .inr done

/-- The same entry at the same point of its exchange; it may have lost its token. -/
structure InflightEntry.Rests (old new : InflightEntry) : Prop extends old.Descends new where
  stays : new.state = old.state
  token : new.flowTokenHeld = true → old.flowTokenHeld = true

theorem InflightEntry.Rests.refl (ent : InflightEntry) : ent.Rests ent := ⟨.refl ent, rfl, id⟩

theorem InflightEntry.Rests.trans {old middle new : InflightEntry}
    (first : old.Rests middle) (hs : middle.Rests new) : old.Rests new :=
  ⟨first.toDescends.trans hs.toDescends, hs.stays.trans first.stays,
    fun hh => first.token (hs.token hh)⟩

namespace InflightTable

def Narrows (before after : InflightTable) : Prop :=
  KeyedTable.Follows InflightEntry.Descends before after

def Rests (before after : InflightTable) : Prop :=
  KeyedTable.Follows InflightEntry.Rests before after

variable {before middle after tab : InflightTable} {pid : PacketID}

theorem Narrows.refl (tab : InflightTable) : tab.Narrows tab := .of_subset .refl fun _ hs => hs

theorem narrows_updateState : tab.Narrows (tab.updateState pid .waitingPubComp) :=
  follows_modify .refl (fun _ => ⟨rfl, rfl, rfl, rfl, rfl, rfl, id, .inr rfl⟩) _ _ _

theorem Rests.refl (tab : InflightTable) : tab.Rests tab := .of_subset .refl fun _ stored => stored

theorem Rests.trans (first : before.Rests middle) (second : middle.Rests after) :
    before.Rests after :=
  KeyedTable.Follows.trans .trans first second

theorem Rests.narrows (hr : before.Rests after) : before.Narrows after :=
  KeyedTable.Follows.mono InflightEntry.Rests.toDescends hr

theorem rests_clearFlowToken : tab.Rests (tab.setFlowTokenHeld pid false) :=
  follows_modify .refl (fun _ =>
    ⟨⟨rfl, rfl, rfl, rfl, rfl, rfl, id, .inl rfl⟩, rfl, nofun⟩) _ _ _

theorem rests_setAcked : tab.Rests (tab.setAcked pid) := follows_modify .refl (fun _ =>
    ⟨⟨rfl, rfl, rfl, rfl, rfl, rfl, nofun, .inl rfl⟩, rfl, id⟩) _ _ _

theorem rests_erase : Rests tab (tab.erase pid) := .of_subset .refl fun _ hs => (mem_erase.mp hs).1

end InflightTable

def InflightTable.NarrowsTasks (before after : InflightTable) : Prop :=
  ∀ entry ∈ after, entry.retained = false → ∃ old ∈ before, old.Descends entry

theorem InflightTable.Narrows.tasks {before after : InflightTable}
    (hn : before.Narrows after) : before.NarrowsTasks after :=
  fun ent hs _ => hn ent hs

theorem narrowsTasks_put {tab : InflightTable} {ent : InflightEntry}
    (hr : ent.retained = true) : NarrowsTasks tab (tab.put ent) := by
  intro stored hm hit
  rcases mem_put.mp hm with ⟨old, -⟩ | rfl
  · exact ⟨stored, old, .refl stored⟩
  · rw [hr] at hit
    cases hit

def Shrinks (before after : ClientQueue) : Prop := ∀ task ∈ after.tasks, task ∈ before.tasks

theorem Shrinks.refl (queue : ClientQueue) : Shrinks queue queue := fun _ hs => hs

theorem Shrinks.of_eq {before after : ClientQueue} (he : after = before) :
    Shrinks before after := by
  rw [he]
  exact .refl before

namespace Downlink

variable {down : Downlink} {pid : PacketID}

theorem releaseEntry_rests : down.inflight.Rests (down.releaseEntry pid).inflight := by
  unfold releaseEntry
  split
  · exact .refl _
  · exact rests_erase

variable (ent : InflightEntry) (acq : Bool)

theorem discardRetransmission_rests :
    down.inflight.Rests (down.discardRetransmission ent acq).inflight := by
  unfold discardRetransmission
  split
  · exact rests_erase
  · split
    · exact .refl _
    · exact .refl _

theorem undoRetransmission_rests :
    down.inflight.Rests (down.undoRetransmission ent acq).inflight := by
  unfold undoRetransmission
  split
  · exact rests_clearFlowToken
  · exact .refl _

theorem discardRetransmission_queue : (down.discardRetransmission ent acq).queue = down.queue := by
  unfold discardRetransmission
  split
  · rfl
  · split <;> rfl

theorem undoRetransmission_queue : (down.undoRetransmission ent acq).queue = down.queue := by
  unfold undoRetransmission
  split <;> rfl

variable {ent : InflightEntry}

/-- An entry that holds a token is sent again with it; another one takes a token. -/
theorem acquireRetransmitToken_cases {acd : Downlink} {sent : InflightEntry} {acq : Bool}
    (ht : down.acquireRetransmitToken ent = some (acd, sent, acq)) :
    (ent.flowTokenHeld = true ∧ acd = down ∧ sent = ent ∧ acq = false) ∨
      (ent.flowTokenHeld = false ∧ sent = { ent with flowTokenHeld := true } ∧
        acq = true ∧ ∃ bkt, down.bucket.tryGetToken = some bkt ∧ acd = { down with
            bucket := bkt
            inflight := down.inflight.setFlowTokenHeld ent.packetID true }) := by
  unfold acquireRetransmitToken at ht
  split at ht
  · next held =>
      cases ht
      exact .inl ⟨held, rfl, rfl, rfl⟩
  · next tokenless =>
      obtain ⟨bkt, token, he⟩ := map_eq_some_iff.mp ht
      cases he
      exact .inr ⟨by simpa using tokenless, rfl, rfl, bkt, token, rfl⟩

theorem acquireRetransmitToken_spec {acd : Downlink} {sent : InflightEntry} {acq : Bool}
    (ht : down.acquireRetransmitToken ent = some (acd, sent, acq)) :
    down.inflight.Narrows acd.inflight ∧ acd.queue = down.queue ∧
      sent = { ent with flowTokenHeld := true } := by
  rcases acquireRetransmitToken_cases ht with ⟨hh, rfl, rfl, -⟩ | ⟨-, rfl, -, bkt, -, rfl⟩
  · refine ⟨.refl _, rfl, ?_⟩
    rw [← hh]
  · have narrows : down.inflight.Narrows (down.inflight.setFlowTokenHeld ent.packetID true) :=
      follows_modify .refl (fun _ => ⟨rfl, rfl, rfl, rfl, rfl, rfl, id, .inl rfl⟩) _ _ _
    exact ⟨narrows, rfl, rfl⟩

theorem registerEntry_eq_some {registered : Downlink}
    (ht : down.registerEntry ent = some registered) :
    down.inflight.get ent.packetID = none ∧ ∃ bkt, down.bucket.tryGetToken = some bkt ∧
        registered = { down with bucket := bkt, inflight := down.inflight.put ent } := by
  obtain ⟨⟨-, ha⟩, he⟩ := ite_none_right_eq_some.mp ht
  obtain ⟨bkt, token, rfl⟩ := map_eq_some_iff.mp he
  exact ⟨ha, bkt, token, rfl⟩

/-- Giving up a send that was only registered restores the table and the bucket. -/
theorem releaseEntry_registered {registered : Downlink}
    (ht : down.registerEntry ent = some registered) :
    registered.releaseEntry ent.packetID = down := by
  obtain ⟨absent, bucket, taken, rfl⟩ := registerEntry_eq_some ht
  have held : (down.inflight.put ent).get ent.packetID = some ent := KeyedTable.get_put_self
  have table : (down.inflight.put ent).erase ent.packetID = down.inflight :=
    KeyedTable.erase_put_of_absent absent
  simp only [releaseEntry, held, table, Bucket.putToken_tryGetToken taken]

@[simp] theorem releaseEntry_queue : (down.releaseEntry pid).queue = down.queue := by
  unfold releaseEntry
  split <;> rfl

theorem advanceTask_shrinks (down : Downlink) (task : DeliveryTask) (adv : Bool) :
    Shrinks down.queue (down.advanceTask task adv).queue := by
  cases adv with
  | false => exact .refl _
  | true => exact fun _ hs => ClientQueue.mem_of_mem_advanceCursor hs

theorem foldl_advanceOne_shrinks (adv : Position → Bool) (popped : List InflightEntry)
    (down : Downlink) :
    Shrinks down.queue (popped.foldl (advanceOne adv) down).queue := by
  induction popped generalizing down with
  | nil => exact .refl _
  | cons ent rest ih =>
    intro task hs
    have before := ih (down.advanceOne adv ent) task hs
    unfold advanceOne at before
    split at before
    · exact before
    · split at before
      · exact ClientQueue.mem_of_mem_advanceCursor before
      · exact before

theorem completeTerminal_shrinks (adv : Position → Bool) (qos : Nat) : Shrinks down.queue
      (down.completeTerminalOutgoingInflight adv pid qos).queue := by
  unfold completeTerminalOutgoingInflight
  split
  · exact .refl _
  · exact foldl_advanceOne_shrinks adv _ _

theorem mem_completeTerminal {adv : Position → Bool} {qos : Nat} {target : InflightEntry}
    (hit : down.inflight.ackTarget pid qos = some target)
    (hs : ent ∈ (down.completeTerminalOutgoingInflight adv pid qos).inflight) :
    (ent ∈ down.inflight ∧ ent.packetID ≠ pid) ∨ ent = { target with acked := true } := by
  rw [completeTerminal_inflight hit] at hs
  have marked := (popAckedInOrder_rest.mp hs).1
  obtain ⟨hf, idEq, -, -⟩ := ackTarget_eq_some_iff.mp hit
  rcases mem_modify.mp marked with old | ⟨old, hm, hh, rfl⟩
  · exact .inl old
  · rw [down.inflight.eq_of_key_eq hm hf (hh.trans idEq.symm)]
    exact .inr rfl

theorem completeTerminal_rests (adv : Position → Bool) (qos : Nat) : down.inflight.Rests
      (down.completeTerminalOutgoingInflight adv pid qos).inflight := by
  cases hit : down.inflight.ackTarget pid qos with
  | none =>
    unfold completeTerminalOutgoingInflight
    rw [hit]
    exact .refl _
  | some target =>
    rw [completeTerminal_inflight hit]
    have hm : down.inflight.Rests (down.inflight.setAcked pid) := rests_setAcked
    exact hm.trans (.of_subset .refl fun _ hs => (popAckedInOrder_rest.mp hs).1)

theorem handlePubRec_success (down : Downlink) (pid : PacketID) (adv : Position → Bool) {code : Nat}
    (hs : mqtt5ReasonCodeIsError code = false) :
    ((down.handlePubRec adv pid code).2 = false ∧ (down.handlePubRec adv pid code).1 = down ∧
        down.pubrecTarget pid = none) ∨
      ∃ target, (down.handlePubRec adv pid code).2 = true ∧
        (down.handlePubRec adv pid code).1 = { down with
          inflight := down.inflight.updateState pid .waitingPubComp } ∧
        down.pubrecTarget pid = some target := by
  simp only [handlePubRec, hs]
  cases target : down.pubrecTarget pid with
  | none => exact .inl ⟨rfl, rfl, rfl⟩
  | some ent => exact .inr ⟨ent, rfl, rfl, rfl⟩

end Downlink

namespace Outbound

@[simp] theorem advanceTask_inflight (down : Downlink) (task : DeliveryTask)
    (adv : Bool) : (down.advanceTask task adv).inflight = down.inflight := by
  cases adv <;> rfl

inductive Terminal : PeerLabel → PacketID → Nat → (Position → Bool) → Prop where
  | puback (packetID : PacketID) (advances : Position → Bool) :
      Terminal (.puback packetID advances) packetID 1 advances
  | pubrec (packetID : PacketID) {reasonCode : Nat} (advances : Position → Bool) (written : Bool) :
      mqtt5ReasonCodeIsError reasonCode = true →
      Terminal (.pubrec packetID reasonCode advances written) packetID 2 advances
  | pubcomp (packetID : PacketID) (reasonCode : Nat) (advances : Position → Bool) :
      Terminal (.pubcomp packetID reasonCode advances) packetID 2 advances

def leaves (s : Outbound) : Option Nat → SavedProgress
  | some now => s.collect now
  | none => s.saved

variable (s next : Outbound) in
/-- Everything a step of the outbound side can do. -/
inductive Moves : OutboundLabel → Prop where
  | append {task} :
      (∀ queued ∈ s.downlink.queue.tasks, queued.position ≠ task.position) →
      next = { s with
        downlink := { s.downlink with queue := (s.downlink.queue.appendTask task).1 } } →
      Moves (.append task)
  | sendRetained {packetID qos ts messageID packet downlink} : s.online = true →
      s.downlink.registerEntry (newRetainedInflightEntry packetID qos ts messageID packet) =
        some downlink →
      next = { s with downlink := downlink, exchange := s.exchange.reset packetID } →
      Moves (.sendRetained packetID qos ts messageID packet true)
  | unsent {packetID qos ts messageID packet} :
      next = s → Moves (.sendRetained packetID qos ts messageID packet false)
  | start : s.online = true → s.runner = none →
      next = { s with
        runner := some
          { last := alignDeliveryCursorBeforeRunner s.replay s.downlink.inflight
              (loadClientDeliveryCursor s.downlink.queue s.replay) } } →
      Moves (.runner .start)
  | read {runner} : s.runner = some runner → runner.pending = none →
      next = { s with
        runner := some { runner with batch := s.downlink.queue.readTasks runner.last 200 } } →
      Moves (.runner .read)
  | abandon {runner dies} : s.runner = some runner → runner.pending = none →
      next = { s with runner := some { runner with batch := [] }, live := s.live && !dies } →
      Moves (.runner (.abandon dies))
  | advance {runner task rest reason advances} : s.runner = some runner →
      runner.pending = none → runner.batch = task :: rest →
      next = s.advanceHead runner task rest advances →
      Moves (.runner (.advance reason advances))
  | register {runner task rest packetID now downlink} : s.runner = some runner →
      runner.pending = none → runner.batch = task :: rest →
      s.downlink.registerEntry (newDeliveryInflightEntry task packetID now) = some downlink →
      next = { s with
        downlink := downlink
        runner := some { runner with batch := rest, pending := some (.delivery task packetID) }
        exchange := s.exchange.reset packetID } →
      Moves (.runner (.register packetID now))
  | written {runner task packetID} :
      s.runner = some runner → runner.pending = some (.delivery task packetID) →
      next = { s with
        runner := some { runner with last := task.position, pending := none }
        history :=
          .published task.position packetID (deliveryQoS task.deliveryQoS) :: s.history } →
      Moves (.runner .written)
  | oversized {runner task packetID advances} :
      s.runner = some runner → runner.pending = some (.delivery task packetID) →
      next = advanceHead { s with downlink := s.downlink.releaseEntry packetID }
        { runner with pending := none } task runner.batch advances →
      Moves (.runner (.oversized advances))
  | failed {runner task packetID dies} :
      s.runner = some runner → runner.pending = some (.delivery task packetID) →
      next = { s with
        downlink := s.downlink.releaseEntry packetID
        runner := some { runner with batch := [], pending := none }
        live := s.live && !dies } →
      Moves (.runner (.failed dies))
  | retransmit {runner entry sent downlink tokenAcquired} :
      s.runner = some runner → runner.pending = none →
      s.downlink.inflight.firstUnacked = some entry →
      s.downlink.acquireRetransmitToken entry = some (downlink, sent, tokenAcquired) →
      next = { s with
        downlink := downlink
        runner := some { runner with pending := some (.retransmission sent tokenAcquired) } } →
      Moves (.runner .retransmit)
  | released {runner entry tokenAcquired} :
      s.runner = some runner → runner.pending = some (.retransmission entry tokenAcquired) →
      entry.state = .waitingPubComp →
      next = { s with
        runner := some { runner with pending := none }
        exchange :=
          if s.sameExchange entry then s.exchange.release entry.packetID else s.exchange } →
      Moves (.runner .retransmitted)
  | republished {runner entry tokenAcquired} :
      s.runner = some runner → runner.pending = some (.retransmission entry tokenAcquired) →
      entry.state ≠ .waitingPubComp →
      next = { s with
        runner := some { runner with pending := none }
        history := entry.publishedEvent ++ s.history } →
      Moves (.runner .retransmitted)
  | discarded {runner entry tokenAcquired} :
      s.runner = some runner → runner.pending = some (.retransmission entry tokenAcquired) →
      entry.state ≠ .waitingPubComp →
      next = { s with
        downlink := s.downlink.discardRetransmission entry tokenAcquired
        runner := some { runner with pending := none } } →
      Moves (.runner .retransmitOversized)
  | undone {runner entry tokenAcquired dies} :
      s.runner = some runner → runner.pending = some (.retransmission entry tokenAcquired) →
      next = { s with
        downlink := s.downlink.undoRetransmission entry tokenAcquired
        runner := some { runner with pending := none }
        live := s.live && !dies && decide (entry.state ≠ .waitingPubComp) } →
      Moves (.runner (.retransmitFailed dies))
  | completed {label packetID qos advances} :
      s.online = true → s.live = true → Terminal label packetID qos advances →
      next = s.complete advances packetID qos → Moves (.peer label)
  | received {packetID reasonCode advances written} : s.online = true → s.live = true →
      mqtt5ReasonCodeIsError reasonCode = false →
      next = s.receivePubRec packetID reasonCode advances written →
      Moves (.peer (.pubrec packetID reasonCode advances written))
  | connect {environment capacity} : 0 < capacity →
      next = s.connect environment capacity →
      Moves (.session (.connect environment capacity))
  | disconnect {save} : s.online = true →
      next = { s with
        downlink := { s.downlink with inflight := .empty }
        online := false
        live := false
        runner := none
        saved := s.leaves save
        savedExchange := if save.isSome then s.exchange else s.savedExchange } →
      Moves (.session (.disconnect save))
  | commit {now} : s.online = true → 0 < s.acksSinceCommit →
      next = { s with saved := s.collect now, savedExchange := s.exchange, acksSinceCommit := 0 } →
      Moves (.session (.commit now))
  | removeUnfinished {messageID} :
      next = { s with
        saved := { s.saved with
          unfinishedMessages := s.saved.unfinishedMessages.filter fun message =>
            !(message.isOutgoing && message.messageID == messageID) } } →
      Moves (.session (.removeUnfinished messageID))

structure Ordered (runner : Runner) : Prop where
  sorted : runner.batch.Pairwise fun a b => a.position < b.position
  after : ∀ task ∈ runner.batch, runner.last < task.position

variable {s next : Outbound} {rnr : Runner}

theorem ordered_of_batch_nil (last : Position) (pending : Option Pending) :
    Ordered { last := last, batch := [], pending := pending } :=
  ⟨List.Pairwise.nil, nofun⟩

theorem Ordered.withPending (ho : Ordered rnr) (pending : Option Pending) :
    Ordered { rnr with pending := pending } :=
  ⟨ho.sorted, ho.after⟩

theorem ordered_readTasks (queue : ClientQueue) (last : Position) (limit : Nat)
    (pending : Option Pending) :
    Ordered { last := last, batch := queue.readTasks last limit, pending := pending } where
  sorted := (queue.tasks.after_sorted last).sublist (List.take_sublist _ _)
  after _ member := (OrderedLog.mem_after.mp (List.mem_of_mem_take member)).2

section Acknowledge

variable {adv : Position → Bool} {pid : PacketID} {qos : Nat} {ent : InflightEntry}

theorem ackEvents_of_hit (hit : s.downlink.inflight.ackTarget pid qos = some ent) :
    s.ackEvents pid qos = ent.event .acked := by
  simp [ackEvents, hit]

theorem complete_of_miss (hm : s.downlink.inflight.ackTarget pid qos = none) :
    s.complete adv pid qos = s := by
  simp [complete, ackEvents, terminalAcks, Downlink.completeTerminalOutgoingInflight, hm]

theorem entry_event_subset (make : Position → Event) :
    ∀ event ∈ ent.event make, event = make ent.position := by
  intro event hm
  unfold InflightEntry.event at hm
  split at hm
  · cases hm
  · exact List.mem_singleton.mp hm

end Acknowledge

theorem moves_of_idleStep {label : RunnerLabel} (hc : s.runner = some rnr)
    (hi : rnr.pending = none) (ht : s.idleStep rnr label = some next) :
    Moves s next (.runner label) := by
  cases label with
  | read =>
    obtain ⟨-, rfl⟩ := of_guard ht
    exact .read hc hi rfl
  | abandon dies => exact .abandon hc hi (Option.some.inj ht).symm
  | advance reason adv =>
    cases hh : rnr.batch with
    | nil => simp [idleStep, hh] at ht
    | cons task rest =>
      simp only [idleStep, hh] at ht
      obtain ⟨-, rfl⟩ := of_guard ht
      exact .advance hc hi hh rfl
  | register pid now =>
    cases hh : rnr.batch with
    | nil => simp [idleStep, hh] at ht
    | cons task rest =>
      simp only [idleStep, hh] at ht
      obtain ⟨-, he⟩ := ite_none_left_eq_some.mp ht
      obtain ⟨down, hr, he⟩ := map_eq_some_iff.mp he
      exact .register hc hi hh hr he.symm
  | retransmit =>
    cases first : s.downlink.inflight.firstUnacked with
    | none => simp [idleStep, first] at ht
    | some ent =>
      simp only [idleStep, first] at ht
      obtain ⟨⟨down, sent, acq⟩, ha, he⟩ := map_eq_some_iff.mp ht
      exact .retransmit hc hi first ha he.symm
  | _ => cases ht

theorem moves_of_runnerStep {label : RunnerLabel} (ht : s.runnerStep label = some next) :
    Moves s next (.runner label) := by
  unfold runnerStep at ht
  split at ht
  · next idle =>
      split at ht
      · have started : s.startRunner = some next := ht
        obtain ⟨⟨ho, -⟩, rfl⟩ := of_guard started
        exact .start ho idle rfl
      · cases ht
  · next rnr current =>
      split at ht
      · next idle => exact moves_of_idleStep current idle ht
      · next task pid pending =>
          cases label with
          | written => exact .written current pending (Option.some.inj ht).symm
          | oversized adv => exact .oversized current pending (Option.some.inj ht).symm
          | failed dies => exact .failed current pending (Option.some.inj ht).symm
          | _ => cases ht
      · next ent acq pending =>
          cases label with
          | retransmitted =>
            obtain ⟨-, he⟩ := ite_none_right_eq_some.mp ht
            split at he
            · next hs => exact .released current pending hs (Option.some.inj he).symm
            · next hs => exact .republished current pending hs (Option.some.inj he).symm
          | retransmitOversized =>
            obtain ⟨hs, he⟩ := ite_none_left_eq_some.mp ht
            exact .discarded current pending hs (Option.some.inj he).symm
          | retransmitFailed dies => exact .undone current pending (Option.some.inj ht).symm
          | _ => cases ht

theorem moves_of_peerStep {label : PeerLabel} (ht : s.peerStep label = some next) :
    Moves s next (.peer label) := by
  obtain ⟨⟨online, live⟩, hh⟩ := ite_none_right_eq_some.mp ht
  cases label with
  | puback pid adv =>
    exact .completed online live (.puback pid adv) (Option.some.inj hh).symm
  | pubrec pid code adv written =>
    cases hf : mqtt5ReasonCodeIsError code with
    | true =>
      simp only [hf, Downlink.handlePubRec, if_true] at hh
      exact .completed online live (.pubrec pid adv written hf) (Option.some.inj hh).symm
    | false =>
      simp only [hf] at hh
      exact .received online live hf (Option.some.inj hh).symm
  | pubcomp pid code adv =>
    exact .completed online live (.pubcomp pid code adv) (Option.some.inj hh).symm

theorem moves_of_sessionStep {label : SessionLabel} (ht : s.sessionStep label = some next) :
    Moves s next (.session label) := by
  cases label with
  | connect env capacity =>
    obtain ⟨hp, rfl⟩ := of_guard ht
    exact .connect hp rfl
  | disconnect save =>
    obtain ⟨ho, he⟩ := ite_none_right_eq_some.mp ht
    refine .disconnect ho ?_
    rw [← Option.some.inj he]
    cases save <;> rfl
  | commit now =>
    obtain ⟨⟨online, counted⟩, rfl⟩ := of_guard ht
    exact .commit online counted rfl
  | removeUnfinished mid => exact .removeUnfinished (Option.some.inj ht).symm

theorem moves_of_step {label : OutboundLabel} (taken : outbound.step s label = some next) :
    Moves s next label := by
  cases label with
  | append task =>
    obtain ⟨unused, rfl⟩ := of_guard taken
    exact .append unused rfl
  | sendRetained packetID qos ts messageID packet written =>
    obtain ⟨⟨online, -⟩, sent⟩ := ite_none_right_eq_some.mp taken
    obtain ⟨downlink, registered, same⟩ := map_eq_some_iff.mp sent
    cases written with
    | true => exact .sendRetained online registered same.symm
    | false =>
      have restored := Downlink.releaseEntry_registered registered
      refine .unsent (same.symm.trans ?_)
      rw [if_neg (by simp)]
      exact congrArg (fun down => { s with downlink := down }) restored
  | runner label => exact moves_of_runnerStep taken
  | peer label => exact moves_of_peerStep taken
  | session label => exact moves_of_sessionStep taken

def queued (qos : Int) (n : Nat) : DeliveryTask where
  ts := n * 10000
  taskID := n
  messageID := n
  deliveryQoS := qos

def twoTasks (secondQoS : Int) : ClientQueue :=
  ((ClientQueue.empty.appendTask (queued 1 1)).1.appendTask (queued secondQoS 2)).1

def sendFirst : List OutboundLabel :=
  [.session (.connect { now := 1, limit := 10 } 10), .runner .start, .runner .read,
    .runner (.register 1 1), .runner .written]

end Outbound

end SkyTree.Client
