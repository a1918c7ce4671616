import SkyTree.Client.IncomingQoS2

/-!
# What the incoming handlers can do

One inversion lemma for each handler, and the facts about the session that hold
whatever the peer sends and whichever store calls fail.
-/

namespace SkyTree.Client.Uplink

open Foundation Delivery Session Mqtt List Option Core

variable {cid : ClientID} {s next : Uplink} {connection : IncomingConnection}

def Quiet (s next : Uplink) (connection : IncomingConnection) : Prop :=
  ∃ table open_ exchange, QoS2ReceiveStore.Within table connection.qos2 ∧
    next = { s with
      connection := some { connection with qos2 := table, open_ := open_ }
      exchange := exchange }

theorem quiet_answer (hc : s.connection = some connection) (packet : Publish)
    (code : Nat) : Quiet s (s.answer packet code) connection := by
  refine ⟨connection.qos2, connection.open_, (s.answer packet code).exchange, .refl _, ?_⟩
  rw [answer, hc]

theorem quiet_self (hc : s.connection = some connection) : Quiet s s connection := by
  refine ⟨connection.qos2, connection.open_, s.exchange, .refl _, ?_⟩
  rw [← hc]

theorem quiet_table {table : QoS2ReceiveStore} (hw : table.Within connection.qos2) (open_ : Bool) :
    Quiet s { s with connection := some { connection with qos2 := table, open_ := open_ } }
      connection :=
  ⟨table, open_, s.exchange, hw, rfl⟩

def Accepts (clientID : ClientID) (s next : Uplink) (connection : IncomingConnection)
    (packet : Publish) (answers : PublishAnswers) : Prop :=
  packet.qos = 2 ∧ ∃ table sessions, QoS2ReceiveStore.Within table connection.qos2 ∧
    persistIncomingQoS2WaitingPubrel clientID s { connection with qos2 := table }
      (s.newIncoming packet answers) answers.persisted = some sessions ∧
    next = acceptPublish clientID s { connection with qos2 := table }
      (s.newIncoming packet answers) sessions

theorem admitPublish_cases (hc : s.connection = some connection) (packet : Publish)
    (answers : PublishAnswers) :
    Quiet s (s.admitPublish cid connection packet answers) connection ∨
      Accepts cid s (s.admitPublish cid connection packet answers) connection packet
        answers := by
  have clean : (connection.qos2.cleanupExpired s.clock).Within connection.qos2 :=
    QoS2ReceiveStore.within_cleanupExpired
  unfold admitPublish
  split
  · exact .inl (quiet_table (.refl _) false)
  · exact .inl (quiet_self hc)
  · split_ifs with ho full ha
    · exact .inl (quiet_self hc)
    · exact .inl (quiet_table clean false)
    · unfold storeQoS2Publish
      dsimp only
      split
      · refine .inl (quiet_table ?_ false)
        intro wait hs
        obtain ⟨old, hm, idEq, msgEq⟩ := QoS2ReceiveStore.within_store_erase wait hs
        obtain ⟨before, hf, befID, befMsg⟩ := clean old hm
        exact ⟨before, hf, befID.trans idEq, befMsg.trans msgEq⟩
      · next sessions saved => exact .inr ⟨ha, _, sessions, clean, saved, rfl⟩
    · exact .inl (quiet_table clean connection.open_)

/-- A PUBLISH is accepted as a new message or leaves everything but the table alone. -/
theorem handlePublish_cases (hc : s.connection = some connection) (packet : Publish)
    (answers : PublishAnswers) :
    Quiet s (s.handlePublish cid connection packet answers) connection ∨
      Accepts cid s (s.handlePublish cid connection packet answers) connection packet
        answers := by
  unfold handlePublish
  split
  · exact .inl (quiet_table (.refl _) false)
  · exact .inl (quiet_self hc)
  · split
    · exact .inl (quiet_answer hc _ _)
    · exact admitPublish_cases hc packet answers

def Records (message : IncomingMessage) (routing : Routing) (plans : List ClientPlan)
    (before after : List (Nat × ClientID)) : Prop :=
  ∃ clients : List ClientID, after = clients.map (Prod.mk message.serial) ++ before ∧
    (∀ client ∈ clients, ∃ plan ∈ plans, plan.clientID = client ∧
      routing.appends client = true) ∧
    ((plans.map ClientPlan.clientID).Nodup → clients.Nodup)

variable (msg : IncomingMessage) (routing : Routing)

theorem records_self (plans : List ClientPlan)
    (added : List (Nat × ClientID)) : Records msg routing plans added added :=
  ⟨[], rfl, nofun, fun _ => nodup_nil⟩

theorem appendClientTask_eq (s : Uplink) (plan : ClientPlan) :
    ∃ ds, (appendClientTask msg routing s plan = { s with deliveries := ds }) ∨
      routing.appends plan.clientID = true ∧ appendClientTask msg routing s plan = { s with
          deliveries := ds
          added := (msg.serial, plan.clientID) :: s.added } := by
  unfold appendClientTask
  split
  · exact ⟨s.deliveries, .inl rfl⟩
  · next active =>
      dsimp only
      split
      · refine ⟨_, .inr ⟨?_, rfl⟩⟩
        rw [not_or] at active
        exact Bool.eq_true_of_not_eq_false active.2
      · exact ⟨_, .inl rfl⟩

theorem foldl_appendClientTask (plans : List ClientPlan) (s : Uplink) :
    ∃ ds added, Records msg routing plans s.added added ∧
      plans.foldl (appendClientTask msg routing) s =
        { s with deliveries := ds, added := added } := by
  induction plans generalizing s with
  | nil => exact ⟨s.deliveries, s.added, records_self _ _ _ _, rfl⟩
  | cons plan rest ih =>
    obtain ⟨first, hq | ⟨appends, hr⟩⟩ := appendClientTask_eq msg routing s plan
    · rw [foldl_cons, hq]
      obtain ⟨ds, added, ⟨clients, he, ho, hd⟩, heq⟩ := ih { s with deliveries := first }
      refine ⟨ds, added, ⟨clients, he, fun client hm => ?_, fun hn => ?_⟩, heq⟩
      · obtain ⟨source, hp, rest⟩ := ho client hm
        exact ⟨source, mem_cons_of_mem _ hp, rest⟩
      · exact hd (nodup_cons.mp hn).2
    · rw [foldl_cons, hr]
      obtain ⟨ds, added, ⟨clients, he, ho, hd⟩, heq⟩ := ih
          { s with deliveries := first, added := (msg.serial, plan.clientID) :: s.added }
      refine ⟨ds, added, ⟨clients ++ [plan.clientID], ?_, fun client hm => ?_, fun hn => ?_⟩, heq⟩
      · simpa using he
      · rcases mem_append.mp hm with hl | hh
        · obtain ⟨source, hp, rest⟩ := ho client hl
          exact ⟨source, mem_cons_of_mem _ hp, rest⟩
        · obtain rfl := mem_singleton.mp hh
          exact ⟨plan, mem_cons_self, rfl, appends⟩
      · obtain ⟨ha, ht⟩ := nodup_cons.mp hn
        refine nodup_append.mpr ⟨hd ht, nodup_singleton _, ?_⟩
        intro client hl o hh he
        rw [he, mem_singleton.mp hh] at hl
        obtain ⟨source, hp, idEq, -⟩ := ho _ hl
        exact ha (idEq ▸ mem_map_of_mem hp)

/-- A routing that reports an error recorded nothing or missed a client. -/
theorem routePublish_eq (s : Uplink) : ∃ ds added, Records msg routing routing.plans s.added added ∧
      (s.routePublish msg routing).1 = { s with deliveries := ds, added := added } ∧
      ((s.routePublish msg routing).2 = false →
        added = s.added ∨ ∃ plan ∈ routing.plans, routing.appends plan.clientID = false) := by
  unfold routePublish
  split_ifs
  · exact ⟨s.deliveries, s.added, records_self _ _ _ _, rfl, fun _ => .inl rfl⟩
  · obtain ⟨ds, added, hr, he⟩ := foldl_appendClientTask msg routing routing.plans s
    refine ⟨ds, added, hr, he, fun hf => .inr ?_⟩
    obtain ⟨plan, hp, hm⟩ := all_eq_false.mp hf
    refine ⟨plan, hp, ?_⟩
    rw [Bool.not_eq_true, Bool.or_eq_false_iff] at hm
    exact hm.2
  · exact ⟨s.deliveries, s.added, records_self _ _ _ _, rfl, fun _ => .inl rfl⟩

variable {msg : IncomingMessage}

theorem routePublish_succeeds {routing : Routing} (hs : routing.saved = true)
    (ha : ∀ plan ∈ routing.plans, routing.appends plan.clientID = true) :
    (s.routePublish msg routing).2 = true := by
  unfold routePublish
  rw [if_pos hs]
  split
  · rfl
  · apply all_eq_true.mpr
    intro plan hp
    rw [ha plan hp, Bool.or_true]

def Releases (clientID : ClientID) (s next : Uplink) (connection : IncomingConnection)
    (packetID : PacketID) (outcome : PubrelOutcome) (message : IncomingMessage) : Prop :=
  ∃ deliveries added routes,
    Records message outcome.routing outcome.routing.plans s.added added ∧
      let base := { s with deliveries := deliveries, added := added, routes := routes }
      (next = base.fail connection ∧ (added = s.added ∨
        (∃ plan ∈ outcome.routing.plans, outcome.routing.appends plan.clientID = false) ∨
        removeIncomingQoS2Unfinished clientID base connection packetID outcome.removed = none)) ∨
      ∃ sessions,
        removeIncomingQoS2Unfinished clientID base connection packetID outcome.removed =
          some sessions ∧
        next = base.completePubRel connection packetID sessions

theorem finishPubRel_cases (cid : ClientID) (base : Uplink) (connection : IncomingConnection)
    (pid : PacketID) (removed : Bool) :
    (base.finishPubRel cid connection pid removed = base.fail connection ∧
      removeIncomingQoS2Unfinished cid base connection pid removed = none) ∨
    ∃ sessions, removeIncomingQoS2Unfinished cid base connection pid removed = some sessions ∧
      base.finishPubRel cid connection pid removed =
        base.completePubRel connection pid sessions := by
  unfold finishPubRel
  split
  · next failed => exact .inl ⟨rfl, failed⟩
  · next sessions removed => exact .inr ⟨sessions, removed, rfl⟩

variable {pid : PacketID}

theorem remove_ne_none : removeIncomingQoS2Unfinished cid s connection pid true ≠ none := by
  unfold removeIncomingQoS2Unfinished
  split
  · next active =>
      have hn : cid ≠ "" := by
        have hp := active.1
        simp only [shouldPersistIncomingQoS2, Bool.and_eq_true, bne_iff_ne] at hp
        exact hp.1
      simp only [if_true, Core.removeIncomingUnfinished, hn, active.2, if_false]
      split_ifs
      · simp [Except.toOption]
      · split <;> simp [Except.toOption]
  · simp

theorem releases_finish {out : PubrelOutcome} {ds : DeliveryStore}
    {added : List (Nat × ClientID)} {routes : List Publish}
    (hr : Records msg out.routing out.routing.plans s.added added) :
    Releases cid s (finishPubRel cid
        { s with deliveries := ds, added := added, routes := routes } connection pid
        out.removed)
      connection pid out msg := by
  refine ⟨ds, added, routes, hr, ?_⟩
  rcases finishPubRel_cases cid
    { s with deliveries := ds, added := added, routes := routes } connection pid
    out.removed with ⟨he, hf⟩ | hd
  · exact .inl ⟨he, .inr (.inr hf)⟩
  · exact .inr hd

/-- A PUBREL that finds no message only completes the exchange of the peer. -/
theorem handlePubRel_cases (pid : PacketID) (code : Nat) (out : PubrelOutcome) :
    (∃ exchange, s.handlePubRel cid connection pid code out = { s with exchange := exchange }) ∨
      ∃ msg, connection.qos2.read pid = some msg ∧
        Releases cid s (s.handlePubRel cid connection pid code out) connection pid out msg := by
  unfold handlePubRel
  split
  · exact .inl ⟨_, rfl⟩
  · next msg found =>
      refine .inr ⟨msg, found, ?_⟩
      split_ifs
      · exact releases_finish (records_self _ _ _ _)
      · exact ⟨_, _, _, records_self _ _ _ _, .inl ⟨rfl, .inl rfl⟩⟩
      · exact releases_finish (records_self _ _ _ _)
      · obtain ⟨ds, added, hr, routed, hm⟩ := routePublish_eq msg out.routing s
        dsimp only
        split
        · rw [routed]
          exact releases_finish hr
        · next failed =>
            rw [routed]
            refine ⟨ds, added, s.routes, hr, .inl ⟨rfl, ?_⟩⟩
            exact (hm (Bool.eq_false_of_not_eq_true failed)).imp id .inl

theorem restoredIncoming_eq_some {freshID : PacketID → UUID} {serials : PacketID → Nat}
    {unf : UnfinishedMessage}
    (hr : restoredIncoming freshID serials unf = some msg) :
    unf.isOutgoing = false ∧ msg.serial = serials unf.packetID ∧
      msg.messageID = freshID unf.packetID ∧
      msg.ackReasonCode = unf.ackReasonCode ∧
      ∃ packet, unf.publishPacket = some packet ∧ (packet.packetID ≠ 0 → msg.publish = packet) := by
  unfold restoredIncoming at hr
  split at hr
  · cases hr
  · next usable =>
      split at hr
      · cases hr
      · next packet present =>
          obtain ⟨-, rfl⟩ := of_guard hr
          refine ⟨by simpa using mt Or.inl usable, rfl, rfl, rfl, packet, present, fun hn => ?_⟩
          simp [hn]

section Attached

variable {tok : OwnerToken}

theorem Attached.of_offline (ho : s.connection = none)
    (hs : ∀ msg, s.sessions.Incoming cid msg → SavedForm msg) :
    s.Attached cid := by
  refine ⟨?_, ?_, hs⟩
  · simp [ho]
  · simp [ho]

theorem Attached.rewrite (attached : s.Attached cid) (current : s.connection = some connection)
    (keeps : Core.KeepsOwner s.sessions next.sessions cid)
    (saved : ∀ msg, next.sessions.Incoming cid msg → SavedForm msg)
    (sameOwner : ∀ after, next.connection = some after → after.ownerToken = connection.ownerToken) :
    next.Attached cid where
  live _ _ := keeps.live
  owned after same := by
    rw [sameOwner after same]
    have owned := attached.owned connection current
    unfold Core.ownerTokenMatches at owned ⊢
    rwa [keeps.owner]
  saved := saved

theorem Attached.frame (ha : s.Attached cid) (hc : s.connection = some connection)
    (sessEq : next.sessions = s.sessions)
    (ownerEq : ∀ after, next.connection = some after → after.ownerToken = connection.ownerToken) :
    next.Attached cid := by
  apply ha.rewrite hc _ _ ownerEq
  · rw [sessEq]
    exact .of_eq (ha.live connection hc)
  · rw [sessEq]
    exact ha.saved

theorem Quiet.attached (hq : Quiet s next connection) (ha : s.Attached cid)
    (hc : s.connection = some connection) : next.Attached cid := by
  obtain ⟨table, open_, exchange, -, rfl⟩ := hq
  refine ha.frame hc rfl fun after he => ?_
  cases he
  rfl

theorem Accepts.attached {packet : Publish} {answers : PublishAnswers}
    (takes : Accepts cid s next connection packet answers) (ha : s.Attached cid)
    (hc : s.connection = some connection) : next.Attached cid := by
  obtain ⟨qos, table, sessions, -, stays, rfl⟩ := takes
  obtain ⟨hk, hs⟩ := persist_spec ha hc stays
  refine ha.rewrite hc hk (fun msg hi => ?_) fun after he => ?_
  · cases hp : shouldPersistIncomingQoS2 cid connection with
    | false =>
      simp only [hp] at hs
      have he : sessions = s.sessions := hs
      exact ha.saved msg (he ▸ hi)
    | true =>
      simp only [hp, if_true] at hs
      rcases (hs.2 msg).mp hi with ⟨old, -⟩ | rfl
      · exact ha.saved msg old
      · exact ⟨hs.1, rfl, rfl, _, rfl, rfl, qos⟩
  · cases he
    rfl

theorem Releases.attached {pid : PacketID} {out : PubrelOutcome} {msg : IncomingMessage}
    (frees : Releases cid s next connection pid out msg)
    (ha : s.Attached cid) (hc : s.connection = some connection) :
    next.Attached cid := by
  obtain ⟨ds, added, routes, -, ⟨rfl, -⟩ | ⟨sessions, hr, rfl⟩⟩ := frees
  · refine ha.frame hc rfl fun after he => ?_
    cases he
    rfl
  · have base : Attached cid { s with deliveries := ds, added := added, routes := routes } :=
      ⟨ha.live, ha.owned, ha.saved⟩
    obtain ⟨hk, inIff⟩ := remove_spec base hc hr
    refine ha.rewrite hc hk (fun o hi => ?_) fun after he => ?_
    · exact ha.saved o ((inIff o).mp hi).1
    · cases he
      rfl

variable {ival : Nat}

theorem connect_eq_some {receiveMaximum : Nat} {freshID : PacketID → UUID}
    (ht : s.connect cid tok ival receiveMaximum freshID = some next) :
    ∃ opened resp, s.sessions.openSessionForConnect s.clock
        { clientID := cid
          willMessage := none
          sessionExpiryInterval := ival
          nowUnixNano := s.clock } = .ok (opened, resp) ∧
      next = { s with
        sessions := opened.setOwner cid
          { clientID := cid, nodeID := 1, ownerToken := tok, online := true }
        connection := some
          { ownerToken := tok
            sessionExpiryInterval := ival
            receiveMaximum := receiveMaximum
            qos2 := restoreIncomingQoS2FromSession s.clock freshID s.serials
              resp.session.unfinishedMessages }
        exchange := if resp.oldSession.isSome then s.exchange else fun _ => none } := by
  unfold connect at ht
  split at ht
  · cases ht
  · next opened resp done =>
      cases ht
      exact ⟨opened, resp, done, rfl⟩

theorem connect_attached (ha : s.Attached cid) {receiveMaximum : Nat}
    {freshID : PacketID → UUID}
    (ht : s.connect cid tok ival receiveMaximum freshID = some next) :
    next.Attached cid := by
  obtain ⟨opened, resp, hd, rfl⟩ := connect_eq_some ht
  constructor
  · exact fun _ _ => openSessionForConnect_live hd
  · intro connection he
    cases he
    simp [Core.ownerTokenMatches]
  · intro msg hi
    have hs := openSessionForConnect_incoming msg hd
    exact ha.saved msg (hs.2.1 hi).1

variable {outgoing : List UnfinishedMessage}

theorem disconnect_eq_some
    (ht : s.disconnect cid connection ival outgoing = some next) :
    (connection.sessionExpiryInterval = 0 → ival = 0) ∧
      (∀ msg ∈ outgoing, msg.isOutgoing = true) ∧
      ∃ saved, s.sessions.saveOfflineState s.clock
          { clientID := cid
            ownerToken := connection.ownerToken
            unfinishedMessages := outgoing
            outgoingReplayCursor := none
            clearWill := true
            sessionExpiryInterval := ival
            nowUnixNano := s.clock } = .ok saved ∧
        next = { s with
          sessions := saved
          connection := none
          exchange := if ival = 0 then fun _ => none else s.exchange } := by
  obtain ⟨⟨hi, allOut⟩, ht⟩ := ite_none_right_eq_some.mp ht
  split at ht
  · cases ht
  · next saved done =>
      cases ht
      exact ⟨hi, allOut, saved, done, rfl⟩

theorem disconnect_attached (ha : s.Attached cid)
    (hc : s.connection = some connection)
    (ht : s.disconnect cid connection ival outgoing = some next) :
    next.Attached cid := by
  obtain ⟨-, allOut, saved, hd, rfl⟩ := disconnect_eq_some ht
  refine .of_offline rfl fun msg hi => ?_
  have hk := (saveOfflineState_incoming (ha.owned connection hc) allOut
    hd).mp hi
  exact ha.saved msg hk.2

def Untouched (clientID : ClientID) (s next : Uplink) : Prop :=
  ∃ sessions, next = { s with sessions := sessions } ∧
    Core.KeepsOwner s.sessions sessions clientID ∧
    ∀ message, sessions.Incoming clientID message ↔ s.sessions.Incoming clientID message

theorem commitOutgoing_untouched (ha : s.Attached cid) (hc : s.connection = some connection)
    (ht : s.commitOutgoing cid connection outgoing = some next) :
    Untouched cid s next := by
  have hl := ha.live connection hc
  obtain ⟨allOut, ht⟩ := ite_none_right_eq_some.mp ht
  obtain ⟨sessions, hd, rfl⟩ := map_eq_some_iff.mp ht
  have done := toOption_eq_some hd
  exact ⟨sessions, rfl, commitOutgoingProgress_keepsOwner _ _ hl done,
    fun msg => commitOutgoingProgress_incoming hl allOut done⟩

theorem removeOutgoing_untouched (ha : s.Attached cid)
    (hc : s.connection = some connection) {mid : UUID}
    (ht : s.removeOutgoing cid mid = some next) : Untouched cid s next := by
  have hl := ha.live connection hc
  obtain ⟨sessions, hd, rfl⟩ := map_eq_some_iff.mp ht
  have hr := toOption_eq_some hd
  exact ⟨sessions, rfl, removeOutgoingUnfinished_keepsOwner _ _ hl hr,
    fun msg => removeOutgoingUnfinished_incoming hl hr⟩

theorem Untouched.attached (hu : Untouched cid s next) (ha : s.Attached cid)
    (hc : s.connection = some connection) : next.Attached cid := by
  obtain ⟨sessions, rfl, hk, inIff⟩ := hu
  apply ha.rewrite hc hk
  · intro msg hi
    exact ha.saved msg ((inIff msg).mp hi)
  · intro after he
    rw [hc] at he
    rw [Option.some.inj he]

end Attached

variable (clientID : ClientID) (s next : Uplink) in
/-- Everything a step of the incoming side can do. -/
inductive Moves : UplinkLabel → Prop where
  | wait {duration} : next = { s with clock := s.clock + duration } →
      Moves (.wait duration)
  | environment {deliveries} : next = { s with deliveries := deliveries } →
      Moves (.environment deliveries)
  | connect {ownerToken interval receiveMaximum freshID} : s.connection = none →
      s.connect clientID ownerToken interval receiveMaximum freshID = some next →
      Moves (.connect ownerToken interval receiveMaximum freshID)
  | disconnect {current interval messages} : s.connection = some current →
      s.disconnect clientID current interval messages = some next →
      Moves (.disconnect interval messages)
  | drop {current} : s.connection = some current →
      next = { s with connection := none } → Moves .drop
  | commitOutgoing {current messages} : s.connection = some current →
      s.commitOutgoing clientID current messages = some next →
      Moves (.commitOutgoing messages)
  | removeOutgoing {current messageID} : s.connection = some current →
      s.removeOutgoing clientID messageID = some next →
      Moves (.removeOutgoing messageID)
  | publish {current packet answers} : s.connection = some current →
      (packet.qos ≠ 0 → packet.packetID ≠ 0) →
      next = s.handlePublish clientID current packet answers →
      Moves (.publish packet answers)
  | pubrel {current packetID reasonCode outcome} : s.connection = some current →
      (outcome.routing.plans.map ClientPlan.clientID).Nodup →
      next = s.handlePubRel clientID current packetID reasonCode outcome →
      Moves (.pubrel packetID reasonCode outcome)

theorem moves_of_step {label : UplinkLabel} (taken : (uplink cid).step s label = some next) :
    Moves cid s next label := by
  cases current : s.connection with
  | none =>
    cases label with
    | wait duration => exact .wait (Option.some.inj taken).symm
    | environment deliveries => exact .environment (Option.some.inj taken).symm
    | connect tok ival receiveMaximum freshID =>
      simp only [uplink, current] at taken
      exact .connect current taken
    | _ => simp [uplink, current] at taken
  | some connection =>
    cases label with
    | wait duration => exact .wait (Option.some.inj taken).symm
    | environment deliveries => exact .environment (Option.some.inj taken).symm
    | connect => simp [uplink, current] at taken
    | disconnect ival outgoing =>
      simp only [uplink, current] at taken
      exact .disconnect current taken
    | drop =>
      simp only [uplink, current] at taken
      exact .drop current (Option.some.inj taken).symm
    | commitOutgoing outgoing =>
      simp only [uplink, current] at taken
      exact .commitOutgoing current taken
    | removeOutgoing messageID =>
      simp only [uplink, current] at taken
      exact .removeOutgoing current taken
    | publish packet answers =>
      simp only [uplink, current] at taken
      obtain ⟨⟨-, named⟩, rfl⟩ := of_guard taken
      exact .publish current named rfl
    | pubrel pid reasonCode outcome =>
      simp only [uplink, current] at taken
      obtain ⟨⟨-, distinct⟩, rfl⟩ := of_guard taken
      exact .pubrel current distinct rfl

theorem step_attached {label : UplinkLabel} (ha : s.Attached cid)
    (ht : (uplink cid).step s label = some next) : next.Attached cid := by
  cases moves_of_step ht with
  | wait he | environment he =>
    subst he
    exact ⟨ha.live, ha.owned, ha.saved⟩
  | connect _ ho => exact connect_attached ha ho
  | disconnect hc closed => exact disconnect_attached ha hc closed
  | drop hc he =>
    subst he
    exact .of_offline rfl ha.saved
  | commitOutgoing hc hw =>
    exact (commitOutgoing_untouched ha hc hw).attached ha hc
  | removeOutgoing hc hw =>
    exact (removeOutgoing_untouched ha hc hw).attached ha hc
  | publish hc _ he =>
    subst he
    rcases handlePublish_cases hc _ _ with hq | takes
    · exact hq.attached ha hc
    · exact takes.attached ha hc
  | pubrel hc _ he =>
    subst he
    rcases handlePubRel_cases _ _ _ with ⟨exchange, heq⟩ | ⟨msg, -, hr⟩
    · rw [heq]
      exact ⟨ha.live, ha.owned, ha.saved⟩
    · exact hr.attached ha hc

theorem initial_attached {sessions : Core} (gone : sessions.sessions cid = none)
    (ds : DeliveryStore) : (initial sessions ds).Attached cid :=
  .of_offline rfl fun _ hi => absurd hi (not_incoming_of_none gone)

def aliceConnects : UplinkLabel := .connect "token" 3600 0 fun packetID => packetID + 100

def alicePacket (payload : List UInt8) : Publish :=
  { topic := "news", payload := payload, qos := 2, packetID := 1 }

def alicePublishes (payload : List UInt8) : UplinkLabel :=
  .publish (alicePacket payload) { messageID := 7 }

def aliceReleases (removed : Bool) : UplinkLabel :=
  .pubrel 1 0
    { routing :=
        { plans := [{ clientID := "bob", deliveryQoS := 2 }], ts := 10, taskID := fun _ => 1 }
      removed := removed }

end SkyTree.Client.Uplink
