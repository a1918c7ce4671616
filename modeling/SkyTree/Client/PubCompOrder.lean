import SkyTree.Client.OutboundSteps

/-!
# What precedes the PUBCOMP of an entry

A terminal acknowledgement does not look at the state of the exchange. The state that
the broker keeps is right nevertheless: in every run an entry waits for PUBCOMP exactly
when a successful PUBREC was received for it, and once it holds a flow token its PUBREL
was sent, unless the runner is about to send it again.
-/

namespace SkyTree.Client

open Foundation Delivery Session Mqtt List Option Function KeyedTable InflightTable Downlink

/-- The PUBREL of the entry is about to be sent with a token that was taken for it. -/
def Pending.releases (entry : InflightEntry) : Pending → Bool
  | .retransmission sent true =>
    sent.packetID == entry.packetID && sent.messageID == entry.messageID &&
      sent.state == .waitingPubComp
  | _ => false

namespace Outbound

def releasing (s : Outbound) (entry : InflightEntry) : Bool :=
  (s.runner.bind Runner.pending).any (Pending.releases entry)

/-- The entry is recorded as waiting for PUBCOMP, and its PUBREL is not still to be sent. -/
structure AwaitsPubComp (s : Outbound) (entry : InflightEntry) : Prop where
  state : entry.state = .waitingPubComp
  token : entry.flowTokenHeld = true
  sent : s.releasing entry = false

def Received (table : InflightTable) (exchange : Exchange) : Prop :=
  ∀ entry ∈ table, entry.qos = 2 → entry.state ≠ .waitingPubAck ∧
    (exchange.pubrecReceived entry.packetID = true ↔ entry.state = .waitingPubComp)

def Released (table : InflightTable) (exchange : Exchange) (releasing : InflightEntry → Bool) :
    Prop :=
  ∀ entry ∈ table, entry.qos = 2 → entry.state = .waitingPubComp → entry.flowTokenHeld = true →
    releasing entry = false → exchange.pubrelSent entry.packetID = true

structure SavedReceived (messages : List UnfinishedMessage) (exchange : Exchange) : Prop where
  distinct : (messages.map UnfinishedMessage.packetID).Nodup
  state : ∀ message ∈ messages, message.qos = 2 → message.state ≠ .waitingPubAck ∧
    (exchange.pubrecReceived message.packetID = true ↔ message.state = .waitingPubComp)

structure Exchanges (s : Outbound) : Prop where
  received : Received s.downlink.inflight s.exchange
  released : s.live = true → Released s.downlink.inflight s.exchange s.releasing
  saved : SavedReceived s.saved.unfinishedMessages s.savedExchange

section Tables

variable {tab after : InflightTable} {exch : Exchange}
  {releasing afterReleasing : InflightEntry → Bool}

theorem Received.rest (hr : Received tab exch) (rests : tab.Rests after) : Received after exch := by
  intro ent hs snd
  obtain ⟨old, hm, he⟩ := rests ent hs
  rw [he.stays, he.packetID]
  exact hr old hm (he.qos.symm.trans snd)

variable {ent : InflightEntry}

theorem releasing_congr {s : Outbound} {old : InflightEntry} (he : old.Descends ent) :
    s.releasing ent = s.releasing old := by
  unfold Outbound.releasing
  congr 1
  funext pending
  unfold Pending.releases
  split
  · rw [he.packetID, he.messageID]
  · rfl

theorem releasing_eq {s : Outbound} {rnr : Runner} (hc : s.runner = some rnr)
    (ent : InflightEntry) :
    s.releasing ent = rnr.pending.any (Pending.releases ent) := by
  unfold Outbound.releasing
  rw [hc, bind_some]

theorem Received.register (hr : Received tab exch) (ha : tab.get ent.packetID = none)
    (starts : ent.qos = 2 → ent.state = .waitingPubRec) :
    Received (tab.put ent) (exch.reset ent.packetID) := by
  intro o hs snd
  rcases mem_put.mp hs with ⟨old, hne⟩ | rfl
  · simp only [Exchange.reset, update_of_ne hne]
    exact hr o old snd
  · simp [Exchange.reset, starts snd]

theorem Released.register (hr : Released tab exch releasing)
    (starts : ent.qos = 2 → ent.state = .waitingPubRec) :
    Released (tab.put ent) (exch.reset ent.packetID) releasing := by
  intro o hs snd state hh sent
  rcases mem_put.mp hs with ⟨old, hne⟩ | rfl
  · simp only [Exchange.reset, update_of_ne hne]
    exact hr o old snd state hh sent
  · rw [starts snd] at state
    cases state

theorem Received.receive (hr : Received tab exch) {pid : PacketID}
    (ho : ∀ ent ∈ after, ent.packetID ≠ pid → ent ∈ tab)
    (hd : ∀ ent ∈ after, ent.packetID = pid → ent.qos = 2 → ent.state = .waitingPubComp) :
    Received after (exch.receive pid) := by
  intro ent hs snd
  by_cases hh : ent.packetID = pid
  · simp [Exchange.receive, hh, hd ent hs hh snd]
  · simp only [Exchange.receive, update_of_ne hh]
    exact hr ent (ho ent hs hh) snd

theorem collected_received (hr : Received tab exch) (now : Nat) :
    SavedReceived (collectOutgoingUnfinishedMessages now tab) exch := by
  refine ⟨collected_distinct now tab, ?_⟩
  intro msg hm snd
  obtain ⟨ent, hs, saved⟩ := mem_filterMap.mp hm
  obtain ⟨state, rfl, hk⟩ := unfinished_eq_some saved
  have ha := (hr ent hs snd).2
  rcases hk snd with ⟨rfl, hw⟩ | ⟨rfl, hd⟩
  · exact ⟨nofun, ha.trans (by simp [hw, InflightEntry.toUnfinished])⟩
  · exact ⟨nofun, ha.trans (by simp [hd, InflightEntry.toUnfinished])⟩

end Tables

section Restore

theorem record_pubrecReceived (sent : List Transmission) (exch : Exchange) :
    (sent.foldl Transmission.record exch).pubrecReceived = exch.pubrecReceived := by
  induction sent generalizing exch with
  | nil => rfl
  | cons tr rest ih =>
    rw [foldl_cons, ih]
    cases tr <;> rfl

theorem release_pubrelSent {exch : Exchange} {pid : PacketID} (o : PacketID)
    (hs : exch.pubrelSent pid = true) :
    (exch.release o).pubrelSent pid = true := by
  by_cases hh : pid = o
  · simp [Exchange.release, hh]
  · simpa [Exchange.release, update_of_ne hh] using hs

theorem record_pubrelSent {sent : List Transmission} {exch : Exchange} {pid : PacketID}
    (hb : exch.pubrelSent pid = true ∨ ∃ base, .pubrel base ∈ sent ∧ base.packetID = pid) :
    (sent.foldl Transmission.record exch).pubrelSent pid = true := by
  induction sent generalizing exch with
  | nil =>
    rcases hb with ha | ⟨_, none, _⟩
    · exact ha
    · cases none
  | cons tr rest ih =>
    rw [foldl_cons]
    apply ih
    rcases hb with ha | ⟨base, hl, rfl⟩
    · left
      cases tr with
      | publish ent => exact ha
      | pubrel ent => exact release_pubrelSent _ ha
    · rcases mem_cons.mp hl with rfl | later
      · exact .inl (by simp [Transmission.record, Exchange.release])
      · exact .inr ⟨base, later, rfl⟩

variable {s : Outbound} {env : RestoreEnvironment} {cap : Nat}

theorem connect_exchanges (he : s.Exchanges) : (s.connect env cap).Exchanges := by
  constructor
  · have hr : RestoredFrom env s.downlink.queue _ (s.restoring env cap) :=
      restoreOutgoing_restoredFrom he.saved.distinct (.new cap)
    intro ent hs snd
    obtain ⟨msg, hl, base, held, hb, rfl⟩ := hr.origin ent hs
    have built := rebuilt_of_restoredEntry hb
    have saved := (mem_outgoingUnfinishedMessages.mp (mem_of_mem_take hl)).1
    have ha := he.saved.state msg saved (built.qos.symm.trans snd)
    have hk := built.state
    simp only [connect, record_pubrecReceived, built.packetID]
    cases state : msg.state with
    | waitingPubAck => exact absurd state ha.1
    | waitingPubRec | waitingPubComp =>
      simp only [state, outgoingInflightStateFromSession, Option.some.injEq] at hk
      simpa [← hk, state] using ha
    | waitingPubRel => simp [state, outgoingInflightStateFromSession] at hk
  · intro live ent hs _ state held _
    apply record_pubrelSent
    exact .inr (restore_released _ _ live ent hs held state)
  · exact he.saved

end Restore

section Steps

variable {s next : Outbound} {rnr : Runner}

theorem Exchanges.rest (inv : s.Exchanges) (hr : s.downlink.inflight.Rests next.downlink.inflight)
    (exch : next.exchange = s.exchange) (saved : next.saved = s.saved)
    (exchEq : next.savedExchange = s.savedExchange)
    (hl : next.live = true → s.live = true ∧
      ∀ ent, next.releasing ent = false → s.releasing ent = false) : next.Exchanges := by
  constructor
  · rw [exch]
    exact inv.received.rest hr
  · rw [exch]
    intro live' ent hs snd state hh sent
    obtain ⟨live, hb⟩ := hl live'
    obtain ⟨old, hm, he⟩ := hr ent hs
    rw [he.packetID]
    apply inv.released live old hm (he.qos.symm.trans snd) (he.stays.symm.trans state) (he.token hh)
    rw [← releasing_congr he.toDescends]
    exact hb ent sent
  · rw [saved, exchEq]
    exact inv.saved

theorem not_releasing_of_idle (hc : s.runner = some rnr) (hi : rnr.pending = none)
    (ent : InflightEntry) : s.releasing ent = false := by
  rw [releasing_eq hc, hi]
  rfl

variable {packetID : PacketID}

theorem not_releasing_of_delivery (hc : s.runner = some rnr) {task : DeliveryTask}
    (hp : rnr.pending = some (.delivery task packetID)) (ent : InflightEntry) :
    s.releasing ent = false := by
  rw [releasing_eq hc, hp]
  rfl

variable {acq : Bool}

theorem not_releasing_of_state (hc : s.runner = some rnr) {sent : InflightEntry}
    (hp : rnr.pending = some (.retransmission sent acq))
    (hs : sent.state ≠ .waitingPubComp) (ent : InflightEntry) :
    s.releasing ent = false := by
  rw [releasing_eq hc, hp, any_some]
  cases acq with
  | false => rfl
  | true => simp [Pending.releases, hs]

variable {ent : InflightEntry}

theorem register_exchanges (he : s.Exchanges) {down : Downlink}
    (hr : s.downlink.registerEntry ent = some down)
    (starts : ent.qos = 2 → ent.state = .waitingPubRec) (hi : next.downlink = down)
    (hl : next.live = s.live) (exch : next.exchange = s.exchange.reset ent.packetID)
    (hs : next.saved = s.saved) (saved : next.savedExchange = s.savedExchange)
    (releasing : next.releasing = s.releasing) : next.Exchanges := by
  obtain ⟨ha, bkt, -, rfl⟩ := registerEntry_eq_some hr
  constructor
  · rw [hi, exch]
    exact he.received.register ha starts
  · rw [hi, exch, releasing, hl]
    exact fun live => (he.released live).register starts
  · rw [hs, saved]
    exact he.saved

theorem retransmit_exchanges (he : s.Exchanges) (hc : s.runner = some rnr)
    (hi : rnr.pending = none) {sent : InflightEntry} {down : Downlink}
    (first : s.downlink.inflight.firstUnacked = some ent)
    (ht : s.downlink.acquireRetransmitToken ent = some (down, sent, acq)) :
    Exchanges { s with
      downlink := down
      runner := some { rnr with pending := some (.retransmission sent acq) } } := by
  have hq := not_releasing_of_idle hc hi
  obtain ⟨hf, -⟩ := firstUnacked_eq_some first
  rcases acquireRetransmitToken_cases ht with
    ⟨-, rfl, rfl, rfl⟩ | ⟨-, rfl, rfl, bkt, -, rfl⟩
  · exact he.rest (.refl _) rfl rfl rfl fun hl => ⟨hl, fun o _ => hq o⟩
  · constructor
    · intro o hs snd
      have moved : o ∈ s.downlink.inflight.setFlowTokenHeld ent.packetID true := hs
      rcases mem_modify.mp moved with ⟨old, -⟩ | ⟨old, hm, -, rfl⟩
      · exact he.received o old snd
      · exact he.received old hm snd
    · intro hl o hs snd state held hu
      have moved : o ∈ s.downlink.inflight.setFlowTokenHeld ent.packetID true := hs
      rcases mem_modify.mp moved with ⟨old, -⟩ | ⟨old, hm, hh, rfl⟩
      · exact he.released hl o old snd state held (hq o)
      · -- the entry under the identifier is the one whose PUBREL is about to be sent
        obtain rfl := s.downlink.inflight.eq_of_key_eq hm hf hh
        have hw : old.state = .waitingPubComp := state
        simp [Outbound.releasing, Pending.releases, hw] at hu
    · exact he.saved

theorem released_exchanges (inv : s.Exchanges) (current : s.runner = some rnr)
    (hp : rnr.pending = some (.retransmission ent acq)) :
    Exchanges { s with
      runner := some { rnr with pending := none }
      exchange := if s.sameExchange ent then s.exchange.release ent.packetID else s.exchange } := by
  constructor
  · intro other hs snd
    have hb := inv.received other hs snd
    dsimp only
    split
    · exact hb
    · exact hb
  · intro hl other hs snd state hh _
    cases ho : s.releasing other with
    | false =>
      have hb := inv.released hl other hs snd state hh ho
      dsimp only
      split
      · exact release_pubrelSent _ hb
      · exact hb
    | true =>
      rw [releasing_eq current, hp] at ho
      cases acq with
      | false => cases ho
      | true =>
        simp only [any_some, Pending.releases, Bool.and_eq_true, beq_iff_eq] at ho
        obtain ⟨⟨idEq, msgEq⟩, -⟩ := ho
        have hf : s.downlink.inflight.get ent.packetID = some other :=
          get_eq_some_iff.mpr ⟨hs, idEq.symm⟩
        have he : s.sameExchange ent = true := by simp [sameExchange, hf, msgEq]
        dsimp only
        rw [if_pos he, idEq]
        simp [Exchange.release]
  · exact inv.saved

theorem pubrecEntry_of_target {target : InflightEntry}
    (hit : s.downlink.pubrecTarget packetID = some target) :
    s.pubrecEntry packetID = some target := by
  simp only [Downlink.pubrecTarget, filter_eq_some_iff, Bool.and_eq_true] at hit
  simp [pubrecEntry, filter_eq_some_iff, hit.1, hit.2.1]

theorem repeated_pubrec_exchanges (he : s.Exchanges)
    (hf : s.pubrecEntry packetID = some ent) (miss : s.downlink.pubrecTarget packetID = none) :
    Received s.downlink.inflight (s.exchange.receive packetID) := by
  obtain ⟨hs, snd⟩ := filter_eq_some_iff.mp hf
  obtain ⟨hm, hn⟩ := get_eq_some_iff.mp hs
  apply he.received.receive fun _ hs _ => hs
  intro o put hh _
  obtain rfl := s.downlink.inflight.eq_of_key_eq put hm (hh.trans hn.symm)
  have hu := (he.received o hm (by simpa using snd)).1
  have hw : o.state ≠ .waitingPubRec := by
    have none := filter_eq_none_iff.mp miss o hs
    simpa [snd] using none
  cases state : o.state with
  | waitingPubAck => exact absurd state hu
  | waitingPubRec => exact absurd state hw
  | waitingPubComp => rfl

theorem received_exchanges (inv : s.Exchanges) {code : Nat}
    (done : mqtt5ReasonCodeIsError code = false) (adv : Position → Bool)
    (written : Bool) : (s.receivePubRec packetID code adv written).Exchanges := by
  unfold receivePubRec
  rcases s.downlink.handlePubRec_success packetID adv done with
    ⟨hu, he, miss⟩ | ⟨target, sent, he, hit⟩
  · simp only [hu, he]
    split
    · exact inv
    · next ent found =>
        refine ⟨repeated_pubrec_exchanges inv found miss, fun live => ?_, inv.saved⟩
        have wasLive : s.live = true := by simpa using live
        exact inv.released wasLive
  · simp only [sent, he, pubrecEntry_of_target hit]
    have hm : ∀ ent ∈ s.downlink.inflight.updateState packetID .waitingPubComp,
        (ent ∈ s.downlink.inflight ∧ ent.packetID ≠ packetID) ∨
          ent.packetID = packetID ∧ ent.state = .waitingPubComp := by
      intro ent hs
      rcases mem_modify.mp hs with old | ⟨old, -, hh, rfl⟩
      · exact .inl old
      · exact .inr ⟨hh, rfl⟩
    have ho : ∀ ent ∈ s.downlink.inflight.updateState packetID .waitingPubComp,
        ent.packetID ≠ packetID → ent ∈ s.downlink.inflight := by
      intro ent hs away
      rcases hm ent hs with old | ⟨hh, -⟩
      · exact old.1
      · exact absurd hh away
    have received : Received (s.downlink.inflight.updateState packetID .waitingPubComp)
        (s.exchange.receive packetID) := by
      apply inv.received.receive ho
      intro ent hs hh _
      rcases hm ent hs with old | ⟨-, hd⟩
      · exact absurd hh old.2
      · exact hd
    cases written with
    | false => exact ⟨received, fun live => by simp at live, inv.saved⟩
    | true =>
      refine ⟨received, fun live ent hs snd state held sent => ?_, inv.saved⟩
      have wasLive : s.live = true := by simpa using live
      by_cases hh : ent.packetID = packetID
      · simp [Exchange.release, hh]
      · apply release_pubrelSent
        exact inv.released wasLive ent (ho ent hs hh) snd state held sent

theorem advanceTask_rests (down : Downlink) (task : DeliveryTask) (adv : Bool) :
    down.inflight.Rests (down.advanceTask task adv).inflight := by
  cases adv <;> exact .refl _

theorem initial_exchanges (queue : ClientQueue) : (initial queue).Exchanges :=
  ⟨(fun _ none => nomatch none), (fun hl => nomatch hl), nodup_nil, fun _ none => nomatch none⟩

theorem step_exchanges {label : OutboundLabel} (inv : s.Exchanges)
    (ht : outbound.step s label = some next) : next.Exchanges := by
  cases moves_of_step ht <;> subst_vars
  case append => exact inv.rest (.refl _) rfl rfl rfl fun hl => ⟨hl, fun _ sent => sent⟩
  case sendRetained _ hr =>
    exact register_exchanges inv hr (fun snd => if_pos snd) rfl rfl rfl rfl rfl rfl
  case unsent => exact inv
  case start _ stopped =>
    refine inv.rest (.refl _) rfl rfl rfl fun hl => ⟨hl, fun ent _ => ?_⟩
    unfold Outbound.releasing
    rw [stopped]
    rfl
  case read hc hp =>
    exact inv.rest (.refl _) rfl rfl rfl fun hl =>
      ⟨hl, fun ent _ => not_releasing_of_idle hc hp ent⟩
  case abandon hc hp =>
    exact inv.rest (.refl _) rfl rfl rfl fun hl =>
      ⟨(Bool.and_eq_true_iff.mp hl).1, fun ent _ => not_releasing_of_idle hc hp ent⟩
  case advance hc hp _ =>
    refine inv.rest ?_ rfl rfl rfl fun hl =>
      ⟨hl, fun ent _ => not_releasing_of_idle hc hp ent⟩
    exact advanceTask_rests _ _ _
  case register hc hp _ hr =>
    refine register_exchanges inv hr (fun snd => if_pos snd) rfl rfl rfl rfl rfl ?_
    funext ent
    rw [not_releasing_of_idle hc hp]
    rfl
  case written hc hp =>
    exact inv.rest (.refl _) rfl rfl rfl fun hl =>
      ⟨hl, fun ent _ => not_releasing_of_delivery hc hp ent⟩
  case oversized hc hp =>
    refine inv.rest ?_ rfl rfl rfl fun hl =>
      ⟨hl, fun ent _ => not_releasing_of_delivery hc hp ent⟩
    exact releaseEntry_rests.trans (advanceTask_rests _ _ _)
  case failed hc hp =>
    exact inv.rest releaseEntry_rests rfl rfl rfl fun hl =>
      ⟨(Bool.and_eq_true_iff.mp hl).1, fun ent _ => not_releasing_of_delivery hc hp ent⟩
  case retransmit hc hp first ha => exact retransmit_exchanges inv hc hp first ha
  case released hc hp _ => exact released_exchanges inv hc hp
  case republished hc hp hs =>
    exact inv.rest (.refl _) rfl rfl rfl fun hl =>
      ⟨hl, fun ent _ => not_releasing_of_state hc hp hs ent⟩
  case discarded hc hp hs =>
    exact inv.rest (discardRetransmission_rests _ _) rfl rfl rfl fun hl =>
      ⟨hl, fun ent _ => not_releasing_of_state hc hp hs ent⟩
  case undone hc hp =>
    refine inv.rest (undoRetransmission_rests _ _) rfl rfl rfl fun hl => ?_
    obtain ⟨alive, hs⟩ := Bool.and_eq_true_iff.mp hl
    exact ⟨(Bool.and_eq_true_iff.mp alive).1, fun ent _ =>
      not_releasing_of_state hc hp (of_decide_eq_true hs) ent⟩
  case completed =>
    exact inv.rest (completeTerminal_rests _ _) rfl rfl rfl fun hl => ⟨hl, fun _ sent => sent⟩
  case received _ _ done => exact received_exchanges inv done _ _
  case connect => exact connect_exchanges inv
  case disconnect save _ =>
    refine ⟨(fun _ none => nomatch none), (fun hl => nomatch hl), ?_⟩
    cases save with
    | none => exact inv.saved
    | some now => exact collected_received inv.received now
  case commit => exact ⟨inv.received, inv.released, collected_received inv.received _⟩
  case removeUnfinished =>
    refine ⟨inv.received, inv.released, (filter_sublist.map _).nodup inv.saved.distinct, ?_⟩
    exact fun msg hm => inv.saved.state msg (mem_of_mem_filter hm)

end Steps

section Runs

variable {queue : ClientQueue} {s next : Outbound} {packetID : PacketID}
  {entry : InflightEntry}

theorem reached_exchanges (hr : outbound.Reached (fun _ _ => True) (initial queue) s) :
    s.Exchanges :=
  hr.invariant (initial_exchanges queue) fun _ _ _ he _ ht =>
    step_exchanges he ht

/-- In every run, a PUBCOMP that finds its entry waiting for PUBCOMP completes it after a
successful PUBREC was received and a PUBREL was sent. -/
theorem pubcomp_after_pubrel (reached : outbound.Reached (fun _ _ => True) (initial queue) s)
    {reasonCode : Nat} {advances : Position → Bool}
    (taken : outbound.step s (.peer (.pubcomp packetID reasonCode advances)) = some next)
    (hit : s.downlink.inflight.ackTarget packetID 2 = some entry)
    (awaits : s.AwaitsPubComp entry) :
    s.exchange.pubrecReceived packetID = true ∧ s.exchange.pubrelSent packetID = true := by
  obtain ⟨⟨-, hl⟩, -⟩ := ite_none_right_eq_some.mp taken
  obtain ⟨hs, rfl, snd, -⟩ := ackTarget_eq_some_iff.mp hit
  have exchanges := reached_exchanges reached
  exact ⟨(exchanges.received entry hs snd).2.mpr awaits.state,
    exchanges.released hl entry hs snd awaits.state awaits.token awaits.sent⟩

end Runs

def sharedQueue : ClientQueue :=
  (ClientQueue.empty.appendTask { queued 2 1 with shareGroup := "g", sharedTaskID := 9 }).1

theorem pubcomp_after_pubrel_shared :
    ∃ s next, outbound.Reached (fun _ _ => True) (initial sharedQueue) s ∧
      outbound.step s (.peer (.pubcomp 1 0 fun _ => true)) = some next ∧
      next.downlink.processed = [("g", 9)] ∧
      s.exchange.pubrecReceived 1 = true ∧ s.exchange.pubrelSent 1 = true := by
  have he : ∃ s, outbound.run (initial sharedQueue)
      (sendFirst ++ [.peer (.pubrec 1 0 (fun _ => true) true)]) = some s ∧
      (∃ next, outbound.step s (.peer (.pubcomp 1 0 fun _ => true)) = some next ∧
        next.downlink.processed = [("g", 9)]) ∧
      ∃ entry, s.downlink.inflight.ackTarget 1 2 = some entry ∧ s.AwaitsPubComp entry :=
    ⟨_, rfl, ⟨_, rfl, by decide⟩, _, rfl, rfl, rfl, rfl⟩
  obtain ⟨s, he, ⟨next, ht, hp⟩, entry, hit, ha⟩ := he
  have hr : outbound.Reached (fun _ _ => True) (initial sharedQueue) s := System.reached_of_run he
      ⟨trivial, trivial, trivial, trivial, trivial, trivial, trivial⟩
  exact ⟨s, next, hr, ht, hp, pubcomp_after_pubrel hr ht hit ha⟩

/-- A PUBCOMP right after the PUBLISH completes the entry: the cursor moves onto the task,
the token is returned and the shared task is processed. A restored entry without a token
is completed although its PUBREL could never be written. -/
theorem pubcomp_without_pubrel : (∃ s next, outbound.run (initial sharedQueue) sendFirst = some s ∧
      outbound.step s (.peer (.pubcomp 1 0 fun _ => true)) = some next ∧
      s.exchange.pubrecReceived 1 = false ∧ s.exchange.pubrelSent 1 = false ∧
      next.downlink.queue.cursor = some (queued 2 1).position ∧
      s.downlink.bucket.tokens = 9 ∧ next.downlink.bucket.tokens = 10 ∧
      next.downlink.processed = [("g", 9)]) ∧
    ∃ s next, outbound.run
        (initial ((ClientQueue.empty.appendTask (queued 2 1)).1.appendTask (queued 2 2)).1)
        (sendFirst ++ [.runner (.register 2 2), .runner .written,
          .peer (.pubrec 1 0 (fun _ => true) true), .peer (.pubrec 2 0 (fun _ => true) false),
          .session (.disconnect (some 3)), .session (.connect { now := 4, limit := 10 } 1)]) =
        some s ∧
      outbound.step s (.peer (.pubcomp 2 0 fun _ => true)) = some next ∧
      s.downlink.inflight.ackTarget 2 2 ≠ none ∧ s.exchange.pubrelSent 2 = false ∧
      next.downlink.inflight.ackTarget 2 2 = none :=
  ⟨⟨_, _, rfl, rfl, rfl, rfl, by decide, rfl, rfl, by decide⟩,
    _, _, rfl, rfl, by decide, rfl, by decide⟩

end Outbound

end SkyTree.Client
