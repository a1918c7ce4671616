import SkyTree.Client.SingleExchange

/-!
# Every QoS 2 PUBLISH belongs to the one exchange of its task

Each step of the outbound side keeps the invariant when it meets `Exclusive`: the runner
starts behind what was sent before, a connection that ends leaves saved messages that
agree with its table, and no acknowledgement overtakes a PUBLISH that is being written.
-/

namespace SkyTree.Client

open Foundation Delivery Session Mqtt List KeyedTable InflightTable Downlink ClientQueue

namespace Outbound

section Steps

variable {s next : Outbound} {rnr : Runner}

theorem SingleExchange.online (hs : s.SingleExchange) (hc : s.runner = some rnr) :
    s.online = true := by
  cases ho : s.online with
  | true => rfl
  | false =>
    rw [hs.running ho] at hc
    cases hc

variable {down : Downlink}

theorem SingleExchange.quiet (lone : s.SingleExchange) (ho : s.online = true)
    (hn : s.downlink.inflight.Narrows down.inflight)
    (less : Shrinks s.downlink.queue down.queue) {after : Runner}
    (hb : ∀ task ∈ after.batch,
      task ∈ s.downlink.queue.tasks ∨ ∃ old, s.runner = some old ∧ task ∈ old.batch)
    (hr : Reads s.history down.inflight down.queue after) (live : Bool)
    (exchange : Exchange) :
    SingleExchange { s with
      downlink := down
      runner := some after
      live := live
      exchange := exchange } := by
  constructor
  · exact lone.once
  · exact lone.tabled.narrow hn
  · apply lone.named.narrow hn.tasks less
    rintro cur ⟨⟩
    exact hb
  · rintro cur ⟨⟩
    exact hr
  · exact fun off => nomatch ho.symm.trans off
  · exact lone.savedTasks
  · intro off msg saved resends task hs
    exact lone.savedOpen off msg saved resends task (less task hs)

theorem start_single (lone : s.SingleExchange) (ho : s.online = true)
    (he : s.Exclusive (.runner .start)) :
    SingleExchange { s with
      runner := some
        { last := alignDeliveryCursorBeforeRunner s.replay s.downlink.inflight
            (loadClientDeliveryCursor s.downlink.queue s.replay) } } := by
  apply lone.quiet ho (.refl _) (.refl _) _ _ s.live s.exchange
  · exact fun _ none => nomatch none
  constructor
  · exact ordered_of_batch_nil _ _
  · intro task hc
    obtain ⟨hs, ha⟩ := hc.resolve_left (fun none => nomatch none)
    exact (he task hs ha).1
  · intro task hc e hm hit hh
    obtain ⟨hs, ha⟩ := hc.resolve_left (fun none => nomatch none)
    exact absurd hh ((he task hs ha).2 e hm hit)
  · exact fun _ _ none => nomatch none
  · exact fun _ _ none => nomatch none

theorem read_single (hs : s.SingleExchange) (hc : s.runner = some rnr) (hi : rnr.pending = none) :
    SingleExchange { s with
      runner := some { rnr with batch := s.downlink.queue.readTasks rnr.last 200 } } := by
  have ha (task : DeliveryTask) (hr : task ∈ s.downlink.queue.readTasks rnr.last 200) :
      task ∈ s.downlink.queue.tasks ∧ rnr.last < task.position :=
    OrderedLog.mem_after.mp (mem_of_mem_take hr)
  refine hs.quiet (hs.online hc) (.refl _) (.refl _) (fun task hr => .inl (ha task hr).1) ?_ _ _
  apply (hs.reads rnr hc).later (ordered_readTasks _ _ _ _) hi
  intro task coming
  refine ⟨.inr ?_, by simp [hi]⟩
  rcases coming with hr | hl
  · exact ha task hr
  · exact hl

theorem abandon_single (hs : s.SingleExchange) (hc : s.runner = some rnr)
    (hi : rnr.pending = none) (live : Bool) :
    SingleExchange { s with runner := some { rnr with batch := [] }, live := live } := by
  apply hs.quiet (hs.online hc) (.refl _) (.refl _) _ _ live
  · exact fun _ none => nomatch none
  apply (hs.reads rnr hc).later (ordered_of_batch_nil _ _) hi
  intro task coming
  exact ⟨coming.imp (fun none => nomatch none) id, by simp [hi]⟩

theorem ite_sublist (adv : Bool) (batch : List DeliveryTask) :
    (if adv then batch else []).Sublist batch := by
  cases adv with
  | true => exact List.Sublist.refl _
  | false => exact nil_sublist _

variable {task : DeliveryTask}

theorem advance_single (hs : s.SingleExchange) (hc : s.runner = some rnr)
    (hi : rnr.pending = none) {rest : List DeliveryTask} (hh : rnr.batch = task :: rest)
    (adv : Bool) :
    (s.advanceHead rnr task rest adv).SingleExchange := by
  have hw := ite_sublist adv rest
  have reads := (hs.reads rnr hc).afterHead hi hh hw
  have hn : s.downlink.inflight.Narrows (s.downlink.advanceTask task adv).inflight := by
    cases adv <;> exact .refl _
  have less := advanceTask_shrinks s.downlink task adv
  unfold advanceHead
  rw [hi]
  refine hs.quiet (hs.online hc) hn less ?_ (reads.narrow hn.tasks less) _ _
  intro later hr
  exact .inr ⟨rnr, hc, by simp [hh, hw.subset hr]⟩

variable {pid : PacketID}

theorem registered_single (lone : s.SingleExchange) (current : s.runner = some rnr)
    (hi : rnr.pending = none) {rest : List DeliveryTask} (head : rnr.batch = task :: rest)
    {now : Nat}
    (entered : s.downlink.registerEntry (newDeliveryInflightEntry task pid now) = some down)
    (exchange : Exchange) :
    SingleExchange { s with
      downlink := down
      runner := some { rnr with batch := rest, pending := some (.delivery task pid) }
      exchange := exchange } := by
  obtain ⟨-, bkt, -, rfl⟩ := registerEntry_eq_some entered
  have reads := lone.reads rnr current
  have hc : Coming s.downlink.queue rnr task := .inl (by simp [head])
  have sorted := reads.ordered.sorted
  rw [head] at sorted
  have hv (e : InflightEntry) (hs : e ∈ s.downlink.inflight)
      (hit : e.retained = false) : e.position ≠ task.position := by
    intro hh
    obtain ⟨_, hp, -⟩ := reads.absent task hc e hs hit hh
    rw [hi] at hp
    cases hp
  constructor
  · exact lone.once
  · apply lone.tabled.put
    · intro qos
      have snd : deliveryQoS task.deliveryQoS = 2 := qos
      simp [newDeliveryInflightEntry, snd]
    · exact fun retained => nomatch retained
    · exact fun _ => hv
    · exact fun isUp => (reads.silent task hc isUp.qos).publishable pid
  · apply lone.named.mono
    rintro mid pos (⟨known, hs | ⟨_, ⟨⟩, hr⟩, he⟩ | ⟨e, hs, hit, he⟩)
    · exact .inl ⟨known, .inl hs, he⟩
    · exact .inl ⟨known, .inr ⟨rnr, current, by simp [head, show known ∈ rest from hr]⟩, he⟩
    · rcases mem_put.mp hs with ⟨old, -⟩ | rfl
      · exact .inr ⟨e, old, hit, he⟩
      · exact .inl ⟨task, .inr ⟨rnr, current, by simp [head]⟩, he⟩
  · rintro after ⟨⟩
    have own (e : InflightEntry) (hs : e ∈ s.downlink.inflight.put
        (newDeliveryInflightEntry task pid now)) (hit : e.retained = false)
        (hh : e.position = task.position) : e.packetID = pid := by
      rcases mem_put.mp hs with ⟨old, -⟩ | rfl
      · exact absurd hh (hv e old hit)
      · rfl
    have prior (later : DeliveryTask) (ha : Coming s.downlink.queue
        { rnr with batch := rest, pending := some (.delivery task pid) } later) :
        Coming s.downlink.queue rnr later :=
      ha.imp (fun hr => by simp [head, show later ∈ rest from hr]) id
    constructor
    · exact ⟨(pairwise_cons.mp sorted).2,
        fun later hr => reads.ordered.after later (by simp [head, show later ∈ rest from hr])⟩
    · intro later ha
      exact reads.silent later (prior later ha)
    · intro later ha e hs hit hh
      rcases mem_put.mp hs with ⟨old, -⟩ | rfl
      · obtain ⟨_, hp, -⟩ := reads.absent later (prior later ha) e old hit hh
        rw [hi] at hp
        cases hp
      · exact ⟨task, rfl, rfl⟩
    · rintro _ _ ⟨⟩
      exact ⟨reads.ordered.after task (by simp [head]), (pairwise_cons.mp sorted).1,
        reads.silent task hc, own⟩
    · exact fun _ _ none => nomatch none
  · exact fun ho => nomatch (lone.online current).symm.trans ho
  · exact lone.savedTasks
  · exact lone.savedOpen

theorem sendRetained_single (hs : s.SingleExchange) {qos ts : Nat} {mid : UUID} {pkt : Publish}
    (entered : s.downlink.registerEntry (newRetainedInflightEntry pid qos ts mid pkt) = some down)
    (exchange : Exchange) :
    SingleExchange { s with downlink := down, exchange := exchange } := by
  obtain ⟨-, bkt, -, rfl⟩ := registerEntry_eq_some entered
  have hn : s.downlink.inflight.NarrowsTasks
      (s.downlink.inflight.put (newRetainedInflightEntry pid qos ts mid pkt)) :=
    narrowsTasks_put rfl
  constructor
  · exact hs.once
  · apply hs.tabled.put
    · intro snd
      have qosTwo : qos = 2 := snd
      simp [newRetainedInflightEntry, qosTwo]
    · exact fun _ => rfl
    · exact fun hit => nomatch hit
    · exact fun isUp => nomatch isUp.task
  · exact hs.named.narrow hn (.refl _) fun current he task hr =>
      .inr ⟨current, he, hr⟩
  · intro rnr current
    exact (hs.reads rnr current).narrow hn (.refl _)
  · exact hs.running
  · exact hs.savedTasks
  · exact hs.savedOpen

theorem SingleExchange.published (lone : s.SingleExchange) (current : s.runner = some rnr)
    {pos : Position} {qos : Nat} {after : Runner}
    (publishable : qos = 2 → Publishable s.history pos pid)
    (own : ∀ e ∈ s.downlink.inflight, e.retained = false → e.position = pos → e.packetID = pid)
    (batch : after.batch = rnr.batch) (idle : after.pending = none)
    (reads : Reads s.history s.downlink.inflight s.downlink.queue after)
    (aside : ∀ later, Coming s.downlink.queue after later → later.position ≠ pos) :
    SingleExchange { s with
      runner := some after, history := .published pos pid qos :: s.history } := by
  constructor
  · refine pairwise_cons.mpr ⟨fun older member => ?_, lone.once⟩
    rintro _ _ ⟨⟩ same
    exact publishable rfl older member same
  · apply lone.tabled.record [_]
    intro e hs isUp event hm hh
    obtain rfl := mem_singleton.mp hm
    have same : pos = e.position := hh
    rw [own e hs isUp.task same.symm, same]
    exact ⟨_, rfl⟩
  · apply lone.named.narrow (InflightTable.Narrows.refl _).tasks (.refl _)
    rintro _ ⟨⟩ later hr
    exact .inr ⟨rnr, current, batch ▸ hr⟩
  · rintro _ ⟨⟩
    apply reads.record [_]
    · intro later hc event hm
      obtain rfl := mem_singleton.mp hm
      exact (aside later hc).symm
    · simp [idle]
    · simp [idle]
  · exact fun ho => nomatch (lone.online current).symm.trans ho
  · exact lone.savedTasks
  · exact fun ho => nomatch (lone.online current).symm.trans ho

theorem written_single (lone : s.SingleExchange) (current : s.runner = some rnr)
    (hp : rnr.pending = some (.delivery task pid)) :
    SingleExchange { s with
      runner := some { rnr with last := task.position, pending := none }
      history := .published task.position pid (deliveryQoS task.deliveryQoS) :: s.history } := by
  have reads := lone.reads rnr current
  have hw := reads.delivery task pid hp
  obtain ⟨ha, he⟩ := reads.afterDelivery hp (List.Sublist.refl _)
  exact lone.published current (fun qos => (hw.silent qos).publishable pid) hw.own rfl rfl ha he

theorem oversized_single (hs : s.SingleExchange) (hc : s.runner = some rnr)
    (hp : rnr.pending = some (.delivery task pid)) (adv : Bool) :
    SingleExchange (advanceHead { s with downlink := s.downlink.releaseEntry pid }
      { rnr with pending := none } task rnr.batch adv) := by
  have hw := ite_sublist adv rnr.batch
  obtain ⟨ha, -⟩ := (hs.reads rnr hc).afterDelivery hp hw
  have hn : s.downlink.inflight.Narrows
      ((s.downlink.releaseEntry pid).advanceTask task adv).inflight := by
    cases adv <;> exact releaseEntry_rests.narrows
  have less : Shrinks s.downlink.queue
      ((s.downlink.releaseEntry pid).advanceTask task adv).queue := by
    have advanced := advanceTask_shrinks (s.downlink.releaseEntry pid) task adv
    rwa [releaseEntry_queue] at advanced
  refine hs.quiet (hs.online hc) hn less ?_ (ha.narrow hn.tasks less) _ _
  intro later hr
  exact .inr ⟨rnr, hc, hw.subset hr⟩

theorem releaseEntry_packetID {e : InflightEntry}
    (hs : e ∈ (down.releaseEntry pid).inflight) : e.packetID ≠ pid := by
  unfold Downlink.releaseEntry at hs
  split at hs
  · next absent => exact get_eq_none_iff.mp absent e hs
  · exact (mem_erase.mp hs).2

theorem failed_single (lone : s.SingleExchange) (hc : s.runner = some rnr)
    (hp : rnr.pending = some (.delivery task pid)) (live : Bool) :
    SingleExchange { s with
      downlink := s.downlink.releaseEntry pid
      runner := some { rnr with batch := [], pending := none }
      live := live } := by
  have hn : s.downlink.inflight.Narrows (s.downlink.releaseEntry pid).inflight :=
    releaseEntry_rests.narrows
  have queEq : (s.downlink.releaseEntry pid).queue = s.downlink.queue := releaseEntry_queue
  have ha := (lone.reads rnr hc).afterFailure hp hn fun _ hs => releaseEntry_packetID hs
  rw [← queEq] at ha
  refine lone.quiet (lone.online hc) hn (.of_eq queEq) ?_ ha live _
  exact fun _ none => nomatch none

variable {sent : InflightEntry} {acq : Bool}

theorem retransmit_single (lone : s.SingleExchange) (hc : s.runner = some rnr)
    (hi : rnr.pending = none) {e : InflightEntry}
    (first : s.downlink.inflight.firstUnacked = some e)
    (ht : s.downlink.acquireRetransmitToken e = some (down, sent, acq)) :
    SingleExchange { s with
      downlink := down
      runner := some { rnr with pending := some (.retransmission sent acq) } } := by
  obtain ⟨hn, queEq, rfl⟩ := acquireRetransmitToken_spec ht
  obtain ⟨hs, hw⟩ := firstUnacked_eq_some first
  have reads := (lone.reads rnr hc).narrow hn.tasks (.of_eq queEq)
  refine lone.quiet (lone.online hc) hn (.of_eq queEq) ?_ ?_ s.live s.exchange
  · exact fun task hr => .inr ⟨rnr, hc, hr⟩
  constructor
  · exact reads.ordered.withPending _
  · exact reads.silent
  · intro task coming o hm hit hh
    obtain ⟨_, hp, -⟩ := reads.absent task coming o hm hit hh
    rw [hi] at hp
    cases hp
  · exact fun _ _ none => nomatch none
  · rintro _ _ ⟨⟩ hit
    constructor
    · intro qos state
      exact lone.tabled.open_ e hs ⟨hit, qos, hw, state⟩
    · intro o hm rival hh
      obtain ⟨old, old', hd⟩ := hn o hm
      rw [hd.packetID]
      apply lone.tabled.apart old old' e hs
      · exact hd.retained.symm.trans rival
      · exact hit
      · exact hd.position.symm.trans hh
    · intro task coming hh
      have hb : Coming s.downlink.queue rnr task := coming.mono (.of_eq queEq)
      obtain ⟨_, hp, -⟩ := (lone.reads rnr hc).absent task hb e hs hit hh.symm
      rw [hi] at hp
      cases hp

theorem settle_single (hs : s.SingleExchange) (hc : s.runner = some rnr)
    (hp : rnr.pending = some (.retransmission sent acq))
    (hn : s.downlink.inflight.Narrows down.inflight)
    (queEq : down.queue = s.downlink.queue) (live : Bool) (exchange : Exchange) :
    SingleExchange { s with
      downlink := down
      runner := some { rnr with pending := none }
      live := live
      exchange := exchange } := by
  have reads := (hs.reads rnr hc).settle hp
  have less : Shrinks s.downlink.queue down.queue := .of_eq queEq
  apply hs.quiet (hs.online hc) hn less
  · exact fun task hr => .inr ⟨rnr, hc, hr⟩
  · exact reads.narrow hn.tasks less

theorem republished_single (lone : s.SingleExchange) (current : s.runner = some rnr)
    (hp : rnr.pending = some (.retransmission sent acq))
    (state : sent.state ≠ .waitingPubComp) :
    SingleExchange { s with
      runner := some { rnr with pending := none }
      history := sent.publishedEvent ++ s.history } := by
  cases kept : sent.retained with
  | true =>
    have hn : sent.publishedEvent = [] := by
      simp [InflightEntry.publishedEvent, InflightEntry.event, kept]
    rw [hn]
    exact settle_single lone current hp (.refl _) rfl _ _
  | false =>
    have one : sent.publishedEvent = [.published sent.position sent.packetID sent.qos] := by
      simp [InflightEntry.publishedEvent, InflightEntry.event, kept]
    rw [one]
    have reads := lone.reads rnr current
    have resend := reads.retransmission sent acq hp kept
    exact lone.published current (fun qos => resend.publishable qos state) resend.own rfl rfl
      (reads.settle hp) resend.aside

variable {tgt : InflightEntry}

theorem acknowledged_single (lone : s.SingleExchange) (ho : s.online = true)
    (hm : tgt ∈ s.downlink.inflight) (hi : ¬ s.Writes tgt.packetID)
    (hn : s.downlink.inflight.Narrows down.inflight)
    (less : Shrinks s.downlink.queue down.queue)
    (closed : ∀ e ∈ down.inflight, e.packetID = tgt.packetID → ¬ e.Open)
    {make : Position → Event} (hh : ∀ position, (make position).position = position)
    (ha : ∀ position sentAt pid qos, make position ≠ .published sentAt pid qos)
    (live : Bool) (exchange : Exchange) (acks : Nat) :
    SingleExchange { s with
      downlink := down
      history := tgt.event make ++ s.history
      live := live
      exchange := exchange
      acksSinceCommit := acks } := by
  have hl (event : Event) (new : event ∈ tgt.event make) :
      tgt.retained = false ∧ event = make tgt.position := by
    refine ⟨?_, entry_event_subset _ _ new⟩
    unfold InflightEntry.event at new
    split at new
    · cases new
    · next hit => exact Bool.eq_false_of_not_eq_true hit
  have idle (rnr : Runner) (pending : Pending) (current : s.runner = some rnr)
      (hw : rnr.pending = some pending) (hp : pending.Publishes) :
      pending.packetID ≠ tgt.packetID :=
    fun he => hi ⟨rnr, pending, current, hw, hp, he⟩
  constructor
  · apply onceOnly_append lone.once
    intro event new position pid qos he
    obtain ⟨-, rfl⟩ := hl event new
    exact ha tgt.position position pid qos he
  · apply (lone.tabled.narrow hn).record
    intro e hs isUp event new position
    obtain ⟨hit, rfl⟩ := hl event new
    rw [hh] at position
    obtain ⟨old, old', hd⟩ := hn e hs
    have he := lone.tabled.apart tgt hm old old' hit
      (hd.retained.symm.trans isUp.task) (position.trans hd.position)
    exact absurd isUp (closed e hs (hd.packetID.trans he.symm))
  · exact lone.named.narrow hn.tasks less fun current he task hr =>
      .inr ⟨current, he, hr⟩
  · intro rnr current
    have reads := lone.reads rnr current
    apply (reads.narrow hn.tasks less).record
    · intro task hc event new position
      obtain ⟨hit, rfl⟩ := hl event new
      rw [hh] at position
      obtain ⟨own, pending, -⟩ := reads.absent task (hc.mono less) tgt hm hit position
      exact idle rnr _ current pending trivial rfl
    · intro task pid pending event new position
      obtain ⟨hit, rfl⟩ := hl event new
      rw [hh] at position
      have he := (reads.delivery task pid pending).own tgt hm hit position
      exact idle rnr _ current pending trivial he.symm
    · intro sent acq pending sends state event new position
      obtain ⟨hit, rfl⟩ := hl event new
      rw [hh] at position
      have he := (reads.retransmission sent acq pending sends).own tgt hm hit position
      exact idle rnr _ current pending state he.symm
  · exact fun off => nomatch ho.symm.trans off
  · exact lone.savedTasks
  · exact fun off => nomatch ho.symm.trans off

theorem complete_single (lone : s.SingleExchange) (ho : s.online = true)
    (hi : ¬ s.Writes pid) (adv : Position → Bool) (qos : Nat) :
    (s.complete adv pid qos).SingleExchange := by
  cases hit : s.downlink.inflight.ackTarget pid qos with
  | none =>
    rw [complete_of_miss hit]
    exact lone
  | some tgt =>
    obtain ⟨hm, rfl, -, -⟩ := ackTarget_eq_some_iff.mp hit
    unfold complete
    rw [ackEvents_of_hit hit]
    apply acknowledged_single lone ho hm hi
    · exact (completeTerminal_rests adv qos).narrows
    · exact completeTerminal_shrinks adv qos
    · intro e hs he isUp
      rcases mem_completeTerminal hit hs with ⟨-, hne⟩ | rfl
      · exact hne he
      · exact nomatch isUp.waiting
    · exact fun _ => rfl
    · exact fun _ _ _ _ he => nomatch he

theorem pubrecEntry_eq_some (hf : s.pubrecEntry pid = some tgt) :
    tgt ∈ s.downlink.inflight ∧ tgt.packetID = pid ∧ tgt.qos = 2 := by
  obtain ⟨hs, qos⟩ := Option.filter_eq_some_iff.mp hf
  obtain ⟨hm, he⟩ := get_eq_some_iff.mp hs
  exact ⟨hm, he, by simpa using qos⟩

theorem handlePubRec_closes (lone : s.SingleExchange) {code : Nat}
    (done : mqtt5ReasonCodeIsError code = false) (adv : Position → Bool)
    (hf : s.pubrecEntry pid = some tgt) :
    ∀ e ∈ (s.downlink.handlePubRec adv pid code).1.inflight, e.packetID = pid → ¬ e.Open := by
  obtain ⟨hm, idEq, qos⟩ := pubrecEntry_eq_some hf
  intro e hs hh isUp
  rcases handlePubRec_success s.downlink pid adv done with
    ⟨-, he, none⟩ | ⟨hit, -, he, -⟩
  · rw [he] at hs
    have heq := s.downlink.inflight.eq_of_key_eq hs hm (hh.trans idEq.symm)
    subst heq
    -- the entry is past PUBREC, or the lookup would have found it
    have hp : e.state ≠ .waitingPubRec := by
      intro state
      rw [Downlink.pubrecTarget, (Option.filter_eq_some_iff.mp hf).1] at none
      simp [Option.filter, qos, state] at none
    cases state : e.state with
    | waitingPubAck => exact lone.tabled.states e hm qos state
    | waitingPubRec => exact hp state
    | waitingPubComp => exact isUp.state state
  · rw [he] at hs
    have moved : e ∈ s.downlink.inflight.updateState pid .waitingPubComp := hs
    rcases mem_modify.mp moved with ⟨-, hne⟩ | ⟨old, -, -, rfl⟩
    · exact hne hh
    · exact isUp.state rfl

theorem received_single (lone : s.SingleExchange) (ho : s.online = true)
    (hi : ¬ s.Writes pid) {code : Nat}
    (done : mqtt5ReasonCodeIsError code = false) (adv : Position → Bool)
    (written : Bool) : (s.receivePubRec pid code adv written).SingleExchange := by
  have spec := handlePubRec_success s.downlink pid adv done
  have queEq : (s.downlink.handlePubRec adv pid code).1.queue = s.downlink.queue := by
    rcases spec with ⟨-, he, -⟩ | ⟨_, -, he, -⟩ <;> rw [he]
  have hn : s.downlink.inflight.Narrows (s.downlink.handlePubRec adv pid code).1.inflight := by
    rcases spec with ⟨-, he, -⟩ | ⟨_, -, he, -⟩ <;> rw [he]
    · exact .refl _
    · exact narrows_updateState
  unfold receivePubRec
  dsimp only
  split
  · next missing =>
      have hu : (s.downlink.handlePubRec adv pid code).1 = s.downlink := by
        rcases spec with ⟨-, he, -⟩ | ⟨tgt, -, -, hf⟩
        · exact he
        · obtain ⟨hs, qos⟩ := Option.filter_eq_some_iff.mp hf
          rw [pubrecEntry, hs] at missing
          simp_all [Option.filter]
      rw [hu]
      exact lone
  · next tgt hf =>
      obtain ⟨hm, hh, -⟩ := pubrecEntry_eq_some hf
      apply acknowledged_single lone ho hm
      · rw [hh]
        exact hi
      · exact hn
      · exact .of_eq queEq
      · rw [hh]
        exact handlePubRec_closes lone done adv hf
      · exact fun _ => rfl
      · rintro _ _ _ _ ⟨⟩

theorem append_single (lone : s.SingleExchange) (sole : s.Exclusive (.append task)) :
    SingleExchange { s with
      downlink := { s.downlink with queue := (s.downlink.queue.appendTask task).1 } } := by
  cases present : s.downlink.queue.deliveryTaskExists task.messageID with
  | true =>
    rw [appendTask_of_present present]
    exact lone
  | false =>
    have new := sole present
    have absent := deliveryTaskExists_eq_false_iff.mp present
    have origin {queued : DeliveryTask} (hs : queued ∈ (s.downlink.queue.appendTask task).1.tasks) :
        queued = task ∨ queued ∈ s.downlink.queue.tasks := by
      rw [appendTask_tasks_of_absent present] at hs
      exact (OrderedLog.mem_insert.mp hs).imp id And.left
    have hc {rnr : Runner} {later : DeliveryTask}
        (ha : Coming (s.downlink.queue.appendTask task).1 rnr later) :
        later = task ∨ Coming s.downlink.queue rnr later := by
      rcases ha with hr | ⟨hs, ha⟩
      · exact .inr (.inl hr)
      · exact (origin hs).imp id fun old => .inr ⟨old, ha⟩
    -- the new message is not the message of any task known before
    have hu (messageID : UUID) (position : Position)
        (hk : Identified s.downlink.inflight s.downlink.queue s.runner messageID position) :
        messageID ≠ task.messageID := by
      rcases hk with ⟨other, hs | ⟨rnr, current, hr⟩, rfl, -⟩ | ⟨entry, hs, hit, rfl, -⟩
      · exact absent other hs
      · exact new.batch rnr current other hr
      · exact (new.entries entry hs hit).2
    have hk (messageID : UUID) (position : Position)
        (after : Identified s.downlink.inflight (s.downlink.queue.appendTask task).1 s.runner
          messageID position) :
        (messageID = task.messageID ∧ position = task.position) ∨
          Identified s.downlink.inflight s.downlink.queue s.runner messageID position := by
      rcases after with ⟨other, hs | hr, he⟩ | entry
      · rcases origin hs with rfl | old
        · exact .inl ⟨he.1.symm, he.2.symm⟩
        · exact .inr (.inl ⟨other, .inl old, he⟩)
      · exact .inr (.inl ⟨other, .inr hr, he⟩)
      · exact .inr (.inr entry)
    constructor
    · exact lone.once
    · exact lone.tabled
    · intro messageID position other first snd
      rcases hk _ _ first with ⟨rfl, rfl⟩ | hb
      · rcases hk _ _ snd with ⟨-, rfl⟩ | before'
        · rfl
        · exact absurd rfl (hu _ _ before')
      · rcases hk _ _ snd with ⟨rfl, -⟩ | before'
        · exact absurd rfl (hu _ _ hb)
        · exact lone.named messageID position other hb before'
    · intro rnr current
      have reads := lone.reads rnr current
      constructor
      · exact reads.ordered
      · intro later ha qos
        rcases hc ha with rfl | hb
        · exact new.silent
        · exact reads.silent later hb qos
      · intro later ha entry hs hit hh
        rcases hc ha with rfl | hb
        · exact absurd hh (new.entries entry hs hit).1
        · exact reads.absent later hb entry hs hit hh
      · exact reads.delivery
      · intro sent acq hp hit
        have resend := reads.retransmission sent acq hp hit
        refine ⟨resend.publishable, resend.own, fun later ha => ?_⟩
        rcases hc ha with rfl | hb
        · exact (new.pending rnr sent acq current hp).symm
        · exact resend.aside later hb
    · exact lone.running
    · exact lone.savedTasks
    · intro ho msg saved able queued hs he
      rcases origin hs with rfl | old
      · exact new.silent.publishable msg.packetID
      · exact lone.savedOpen ho msg saved able queued old he

end Steps

section Session

variable {s next : Outbound}

theorem savedOpen_of_upToDate (lone : s.SingleExchange) {saved : SavedProgress}
    (upTo : s.UpToDate saved) : SavedOpen s.history s.downlink.queue saved := by
  intro msg hm hr task hs he
  obtain ⟨e, hf, isUp, idEq, msgEq⟩ := upTo msg hm hr
  have hh : task.position = e.position := by
    apply lone.named msg.messageID
    · exact .inl ⟨task, .inl hs, he, rfl⟩
    · exact .inr ⟨e, hf, isUp.task, msgEq, rfl⟩
  rw [hh, ← idEq]
  exact lone.tabled.open_ e hf isUp

theorem savedTasks_collect (lone : s.SingleExchange) (now : Nat) :
    SavedTasks (s.collect now).unfinishedMessages := by
  have hit {e : InflightEntry} (hs : e ∈ s.downlink.inflight)
      (none : e.publishPacket = none) : e.retained = false := by
    cases hr : e.retained with
    | false => rfl
    | true =>
      have hp := lone.tabled.packets e hs hr
      rw [none] at hp
      cases hp
  constructor
  · exact collected_distinct now _
  · intro msg hm o mem' _ _ none absent' he
    obtain ⟨e, hs, saved⟩ := mem_filterMap.mp hm
    obtain ⟨otherEntry, put, made⟩ := mem_filterMap.mp mem'
    obtain ⟨state, rfl, -⟩ := unfinished_eq_some saved
    obtain ⟨otherState, rfl, -⟩ := unfinished_eq_some made
    have taskOf := hit hs none
    have rival := hit put absent'
    have hh : e.position = otherEntry.position := by
      apply lone.named e.messageID
      · exact .inr ⟨e, hs, taskOf, rfl, rfl⟩
      · exact .inr ⟨otherEntry, put, rival, he.symm, rfl⟩
    have idEq := lone.tabled.apart e hs otherEntry put taskOf rival hh
    obtain rfl := s.downlink.inflight.eq_of_key_eq hs put idEq
    exact Option.some.inj (saved.symm.trans made)
  · intro msg hm qos
    obtain ⟨e, hs, saved⟩ := mem_filterMap.mp hm
    obtain ⟨state, rfl, states⟩ := unfinished_eq_some saved
    rcases states qos with ⟨rfl, -⟩ | ⟨rfl, -⟩
    · exact fun none => nomatch none
    · exact fun none => nomatch none

theorem disconnect_single (lone : s.SingleExchange) {save : Option Nat}
    (hh : s.UpToDate (s.leaves save)) (savedExchange : Exchange) :
    SingleExchange { s with
      downlink := { s.downlink with inflight := .empty }
      online := false
      live := false
      runner := none
      saved := s.leaves save
      savedExchange := savedExchange } := by
  have hn (e : InflightEntry) : e ∉ (KeyedTable.empty : InflightTable) := not_mem_nil
  constructor
  · exact lone.once
  · exact ⟨fun e hs => absurd hs (hn e), fun e hs => absurd hs (hn e), fun e hs => absurd hs (hn e),
      fun e hs => absurd hs (hn e)⟩
  · apply lone.named.narrow
    · exact fun e hs => absurd hs (hn e)
    · exact .refl _
    · exact fun _ none => nomatch none
  · exact fun _ none => nomatch none
  · exact fun _ => rfl
  · cases save with
    | none => exact lone.savedTasks
    | some now => exact savedTasks_collect lone now
  · exact fun _ => savedOpen_of_upToDate lone hh

theorem resave_single (hs : s.SingleExchange) {saved : SavedProgress}
    (tasks' : SavedTasks saved.unfinishedMessages)
    (open' : s.online = false → SavedOpen s.history s.downlink.queue saved)
    (savedExchange : Exchange) (acks : Nat) :
    SingleExchange { s with
      saved := saved, savedExchange := savedExchange, acksSinceCommit := acks } :=
  { hs with savedTasks := tasks', savedOpen := open' }

theorem SavedTasks.filter {msgs : List UnfinishedMessage} (saved : SavedTasks msgs)
    (keep : UnfinishedMessage → Bool) : SavedTasks (msgs.filter keep) where
  distinct := (filter_sublist.map _).nodup saved.distinct
  names msg member o otherMember :=
    saved.names msg (mem_filter.mp member).1 o (mem_filter.mp otherMember).1
  states msg member := saved.states msg (mem_filter.mp member).1

end Session

section Restored

variable {s : Outbound} {env : RestoreEnvironment} {que : ClientQueue}
  {msgs : List UnfinishedMessage} {rst : Restoring}

structure RestoredTask (queue : ClientQueue) (messages : List UnfinishedMessage)
    (message : UnfinishedMessage) (base : InflightEntry) : Prop where
  saved : message ∈ messages
  qos : message.qos = 2
  none : message.publishPacket = none
  packetID : base.packetID = message.packetID
  state : outgoingInflightStateFromSession message.state = some base.state
  task : ∃ task ∈ queue.tasks, task.messageID = message.messageID ∧
    task.position = base.position ∧ task.messageID = base.messageID

variable {msg : UnfinishedMessage} {base : InflightEntry}

theorem restoredTask_of_built (hm : msg ∈ (outgoingUnfinishedMessages msgs).take env.limit)
    (hb : restoredEntry env que msg = some base) (hit : base.retained = false) :
    RestoredTask que msgs msg base := by
  obtain ⟨saved, able⟩ := mem_outgoingUnfinishedMessages.mp (mem_of_mem_take hm)
  have hr := rebuilt_of_restoredEntry hb
  obtain ⟨none, task, hp, messageID, hf⟩ := hr.task hit
  obtain ⟨hs, -, msgEq⟩ := findDeliveryTaskByMessageID_eq_some hf
  have qos : msg.qos = 2 := by
    simp [isRestorableOutgoingUnfinished, none] at able
    exact able.2.1
  exact ⟨saved, qos, none, hr.packetID, hr.state, task, hs, msgEq, hp.symm, messageID.symm⟩

theorem RestoredTask.unique (tasks' : SavedTasks msgs) {other : UnfinishedMessage}
    {otherBase : InflightEntry} (hr : RestoredTask que msgs msg base)
    (back' : RestoredTask que msgs other otherBase)
    (hh : base.position = otherBase.position) : msg = other := by
  obtain ⟨task, hs, msgEq, hp, -⟩ := hr.task
  obtain ⟨otherTask, put, msg', pos', -⟩ := back'.task
  have he : task = otherTask := by
    apply que.tasks.eq_of_key_eq hs put
    rw [hp, pos', hh]
  subst he
  exact tasks'.names msg hr.saved other back'.saved hr.qos back'.qos hr.none back'.none
    (msgEq.symm.trans msg')

theorem RestoredTask.publishable (open' : SavedOpen s.history s.downlink.queue s.saved)
    (hr : RestoredTask s.downlink.queue s.saved.unfinishedMessages msg base)
    (state : msg.state ≠ .waitingPubComp) :
    Publishable s.history base.position base.packetID := by
  obtain ⟨task, hs, msgEq, hp, -⟩ := hr.task
  rw [← hp, hr.packetID]
  exact open' msg hr.saved ⟨hr.qos, hr.none, state⟩ task hs msgEq

theorem restored_entry (hr : RestoredFrom env que
      ((outgoingUnfinishedMessages msgs).take env.limit) rst)
    {entry : InflightEntry} (hs : entry ∈ rst.inflight) (hit : entry.retained = false) :
    ∃ msg, RestoredTask que msgs msg entry := by
  obtain ⟨msg, hm, base, held, hb, rfl⟩ := hr.origin entry hs
  have task := restoredTask_of_built hm hb hit
  exact ⟨msg, { task with }⟩

theorem restored_event (hr : RestoredFrom env que
      ((outgoingUnfinishedMessages msgs).take env.limit) rst)
    {event : Event} (sent : event ∈ rst.sent.flatMap Transmission.events) :
    ∃ msg base, RestoredTask que msgs msg base ∧ msg.state ≠ .waitingPubComp ∧
      event = .published base.position base.packetID base.qos := by
  obtain ⟨tr, hw, hm⟩ := mem_flatMap.mp sent
  obtain ⟨msg, hl, base, hb, he, -⟩ := hr.sent tr hw
  rw [he] at hm
  unfold restoredTransmission at hm
  split at hm
  · cases hm
  · next state =>
      have hp : event ∈ base.publishedEvent := hm
      have hit : base.retained = false := by
        cases kept : base.retained with
        | false => rfl
        | true => simp [InflightEntry.publishedEvent, InflightEntry.event, kept] at hp
      exact ⟨msg, base, restoredTask_of_built hl hb hit, state, entry_event_subset _ _ hp⟩

theorem connect_single (lone : s.SingleExchange) {capacity : Nat}
    (sole : s.Exclusive (.session (.connect env capacity))) :
    (s.connect env capacity).SingleExchange := by
  have open' : SavedOpen s.history s.downlink.queue s.saved := by
    cases ho : s.online with
    | true => exact savedOpen_of_upToDate lone (sole ho)
    | false => exact lone.savedOpen ho
  have hr : RestoredFrom env s.downlink.queue _ (s.restoring env capacity) :=
    restoreOutgoing_restoredFrom lone.savedTasks.distinct (.new capacity)
  -- two packets of the restore for one task carry one packet identifier
  have ha {msg : UnfinishedMessage} {base : InflightEntry}
      (task : RestoredTask s.downlink.queue s.saved.unfinishedMessages msg base)
      (event : Event)
      (sent : event ∈ ((s.restoring env capacity).sent.flatMap Transmission.events).reverse)
      (hh : event.position = base.position) :
      ∃ qos, event = .published base.position base.packetID qos := by
    obtain ⟨other, otherBase, rival, -, rfl⟩ := restored_event hr (mem_reverse.mp sent)
    have he := rival.unique lone.savedTasks task hh
    subst he
    have position : otherBase.position = base.position := hh
    rw [position, rival.packetID, task.packetID]
    exact ⟨_, rfl⟩
  constructor
  · apply pairwise_append.mpr
    refine ⟨?_, lone.once, ?_⟩
    · apply pairwise_of_forall_mem_list
      intro newer hm older memOld position pid he hh
      obtain ⟨msg, base, task, -, rfl⟩ := restored_event hr (mem_reverse.mp hm)
      obtain ⟨rfl, rfl, -⟩ := Event.published.inj he
      exact ha task older memOld hh
    · intro newer hm older memOld position pid he hh
      obtain ⟨msg, base, task, state, rfl⟩ := restored_event hr (mem_reverse.mp hm)
      obtain ⟨rfl, rfl, -⟩ := Event.published.inj he
      exact task.publishable open' state older memOld hh
  · constructor
    · intro entry hs isUp
      obtain ⟨msg, task⟩ := restored_entry hr hs isUp.task
      apply Publishable.append
      · apply task.publishable open'
        intro hd
        have state := task.state
        rw [hd] at state
        exact isUp.state (Option.some.inj state).symm
      · exact ha task
    · intro entry hs qos state
      obtain ⟨msg, hm, base, held, hb, rfl⟩ := hr.origin entry hs
      have saved := (mem_outgoingUnfinishedMessages.mp (mem_of_mem_take hm)).1
      have built := rebuilt_of_restoredEntry hb
      have hw : base.state = .waitingPubAck := state
      have known := built.state
      rw [hw] at known
      apply lone.savedTasks.states msg saved (built.qos.symm.trans qos)
      cases hk : msg.state with
      | waitingPubAck => rfl
      | _ =>
        rw [hk] at known
        cases known
    · intro entry hs kept
      obtain ⟨msg, hm, base, held, hb, rfl⟩ := hr.origin entry hs
      exact (rebuilt_of_restoredEntry hb).packet kept
    · intro entry hs other put hit rival hh
      obtain ⟨msg, task⟩ := restored_entry hr hs hit
      obtain ⟨otherMessage, back'⟩ := restored_entry hr put rival
      have he := task.unique lone.savedTasks back' hh
      rw [task.packetID, back'.packetID, he]
  · apply lone.named.mono
    rintro messageID position (⟨known, hs | ⟨_, ⟨⟩, _⟩, he⟩ | ⟨entry, hs, hit, he⟩)
    · exact .inl ⟨known, .inl hs, he⟩
    · obtain ⟨msg, task'⟩ := restored_entry hr hs hit
      obtain ⟨task, hq, -, hh, msgEq⟩ := task'.task
      exact .inl ⟨task, .inl hq, msgEq.trans he.1, hh.trans he.2⟩
  · exact fun _ none => nomatch none
  · exact fun off => nomatch off
  · exact lone.savedTasks
  · exact fun off => nomatch off

end Restored

theorem step_single {s next : Outbound} {label : OutboundLabel} (hs : s.SingleExchange)
    (sole : s.Exclusive label) (ht : outbound.step s label = some next) :
    next.SingleExchange := by
  cases moves_of_step ht <;> subst_vars
  case append => exact append_single hs sole
  case sendRetained _ hr => exact sendRetained_single hs hr _
  case unsent => exact hs
  case start ho _ => exact start_single hs ho sole
  case read hc hi => exact read_single hs hc hi
  case abandon hc hi => exact abandon_single hs hc hi _
  case advance hc hi hh => exact advance_single hs hc hi hh _
  case register hc hi hh hr => exact registered_single hs hc hi hh hr _
  case written hc hp => exact written_single hs hc hp
  case oversized hc hp => exact oversized_single hs hc hp _
  case failed hc hp => exact failed_single hs hc hp _
  case retransmit hc hi first ha => exact retransmit_single hs hc hi first ha
  case released hc hp _ => exact settle_single hs hc hp (.refl _) rfl _ _
  case republished hc hp state => exact republished_single hs hc hp state
  case discarded hc hp _ =>
    exact settle_single hs hc hp (discardRetransmission_rests _ _).narrows
      (discardRetransmission_queue _ _) _ _
  case undone hc hp =>
    exact settle_single hs hc hp (undoRetransmission_rests _ _).narrows
      (undoRetransmission_queue _ _) _ _
  case completed ho _ terminal =>
    cases terminal with
    | puback => exact complete_single hs ho sole _ _
    | pubrec => exact complete_single hs ho sole _ _
    | pubcomp => exact complete_single hs ho sole _ _
  case received ho _ done => exact received_single hs ho sole done _ _
  case connect => exact connect_single hs sole
  case disconnect => exact disconnect_single hs sole _
  case commit ho _ =>
    exact resave_single hs (savedTasks_collect hs _) (fun off => nomatch ho.symm.trans off) _ _
  case removeUnfinished =>
    apply resave_single hs (hs.savedTasks.filter _)
    intro off msg hm
    exact hs.savedOpen off msg (mem_filter.mp hm).1

theorem initial_single (que : ClientQueue) : (initial que).SingleExchange := by
  have hn (e : InflightEntry) : e ∉ (initial que).downlink.inflight := not_mem_nil
  constructor
  · exact List.Pairwise.nil
  · exact ⟨fun e hs => absurd hs (hn e), fun e hs => absurd hs (hn e), fun e hs => absurd hs (hn e),
      fun e hs => absurd hs (hn e)⟩
  · rintro mid pos o (⟨task, hs | ⟨_, ⟨⟩, _⟩, name, hh⟩ | ⟨e, hs, -⟩)
    · rintro (⟨again, put | ⟨_, ⟨⟩, _⟩, otherName, otherHere⟩ | ⟨e, hs, -⟩)
      · have he := que.eq_of_messageID_eq hs put (name.trans otherName.symm)
        rw [← hh, ← otherHere, he]
      · exact absurd hs (hn e)
    · exact absurd hs (hn e)
  · exact fun _ none => nomatch none
  · exact fun _ => rfl
  · exact ⟨nodup_nil, (fun _ none => nomatch none), fun _ none => nomatch none⟩
  · exact fun _ _ none => nomatch none

/-- In a run of exclusive steps a QoS 2 PUBLISH of a task comes after nothing but PUBLISH
packets of the task under the same packet identifier: no second identifier, no PUBLISH
after a PUBREC or a terminal acknowledgement. -/
theorem published_in_one_exchange {queue : ClientQueue} {s : Outbound}
    (reached : outbound.Reached Exclusive (initial queue) s) : OnceOnly s.history := by
  have hs := reached.invariant (initial_single queue) fun _ _ _ hs he ht => step_single hs he ht
  exact hs.once

def secondQoSTask : ClientQueue := (ClientQueue.empty.appendTask (queued 2 1)).1

/-- The task is sent, received and completed. -/
theorem published_in_one_exchange_once : ∃ s, outbound.Reached Exclusive (initial secondQoSTask) s ∧
      s.history = [.acked (queued 2 1).position, .received (queued 2 1).position,
        .published (queued 2 1).position 1 2] ∧ OnceOnly s.history := by
  have he : ∃ s, outbound.run (initial secondQoSTask)
      (sendFirst ++ [.peer (.pubrec 1 0 (fun _ => true) true),
        .peer (.pubcomp 1 0 fun _ => true)]) =
        some s ∧
      s.history = [.acked (queued 2 1).position, .received (queued 2 1).position,
        .published (queued 2 1).position 1 2] := ⟨_, rfl, rfl⟩
  obtain ⟨s, he, hh⟩ := he
  have hr : outbound.Reached Exclusive (initial secondQoSTask) s := by
    refine System.reached_of_run he ⟨?_, ?_, trivial, trivial, trivial, ?_, ?_, trivial⟩
    · exact fun ho => nomatch ho
    · intro task _ _
      exact ⟨(fun _ _ none => nomatch none), fun _ none => nomatch none⟩
    · rintro ⟨_, _, ⟨⟩, ⟨⟩, _⟩
    · rintro ⟨_, _, ⟨⟩, ⟨⟩, _⟩
  exact ⟨s, hr, hh, published_in_one_exchange hr⟩

/-- A QoS 1 task that waits for its PUBACK starts the next connection before the QoS 2 task
behind it, which is restored as well and sent a second time under a new identifier. A
takeover restores what the first task's PUBACK committed before the PUBREC of the second and
publishes after it. -/
theorem published_in_two_exchanges : (∃ s, outbound.run (initial (twoTasks 2))
        (sendFirst ++ [.runner (.register 2 2), .runner .written, .session (.disconnect (some 3)),
          .session (.connect { now := 4, limit := 10 } 10), .runner .start, .runner .read,
          .runner (.register 1 5), .runner .written, .runner (.register 3 6), .runner .written]) =
        some s ∧
      .published (queued 2 2).position 2 2 ∈ s.history ∧
      .published (queued 2 2).position 3 2 ∈ s.history ∧
      .acked (queued 2 2).position ∉ s.history) ∧
    ∃ s, outbound.run (initial (twoTasks 2))
        (sendFirst ++ [.runner (.register 2 2), .runner .written, .peer (.puback 1 fun _ => true),
          .session (.commit 3), .peer (.pubrec 2 0 (fun _ => true) true),
          .session (.connect { now := 4, limit := 10 } 10)]) = some s ∧
      s.history = [.published (queued 2 2).position 2 2, .received (queued 2 2).position,
        .acked (queued 1 1).position, .published (queued 2 2).position 2 2,
        .published (queued 1 1).position 1 1] :=
  ⟨⟨_, rfl, by decide, by decide, by decide⟩, _, rfl, rfl⟩

end Outbound

end SkyTree.Client
