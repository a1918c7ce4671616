import SkyTree.Client.IncomingSteps

/-!
# A QoS 2 message is queued once

A message whose PUBREL was routed must not wait anywhere any more, because a restored
copy carries a new message identifier that the queue does not recognise. This holds
as long as a PUBREL that queued a task also gets rid of the saved message.
-/

namespace SkyTree.Client.Uplink

open Foundation Delivery Session Mqtt List

/-- A PUBREL that queues a task completes: every append and the removal succeed, and the
removal is carried out unless nothing is saved under the identifier. -/
def Settles (clientID : ClientID) (s : Uplink) : UplinkLabel → Prop
  | .pubrel packetID _ outcome =>
    (∃ plan ∈ outcome.routing.plans, outcome.routing.appends plan.clientID = true) →
      (∀ plan ∈ outcome.routing.plans, outcome.routing.appends plan.clientID = true) ∧
      outcome.removed = true ∧
      ∀ connection, s.connection = some connection →
        shouldPersistIncomingQoS2 clientID connection = true ∨
          ∀ message, s.sessions.Incoming clientID message → message.packetID ≠ packetID
  | _ => True

def Holds (clientID : ClientID) (s : Uplink) (packetID : PacketID) (serial : Nat) : Prop :=
  (∃ connection, s.connection = some connection ∧ ∃ waiting ∈ connection.qos2,
    waiting.packetID = packetID ∧ waiting.message.serial = serial) ∨
  ∃ message, s.sessions.Incoming clientID message ∧ message.packetID = packetID ∧
    s.serials packetID = serial

structure Once (clientID : ClientID) (s : Uplink) : Prop where
  attached : s.Attached clientID
  held : ∀ packetID serial, s.Holds clientID packetID serial →
    serial < s.accepted ∧ ∀ client, (serial, client) ∉ s.added
  apart : ∀ packetID other serial, s.Holds clientID packetID serial →
    s.Holds clientID other serial → packetID = other
  recorded : ∀ task ∈ s.added, task.1 < s.accepted
  once : s.added.Nodup

variable {cid : ClientID} {s next : Uplink} {conn : IncomingConnection}

theorem Once.shrink (once : s.Once cid) (attached : next.Attached cid)
    (sameAccepted : next.accepted = s.accepted) (sameAdded : next.added = s.added)
    (fewer : ∀ pid serial, next.Holds cid pid serial → s.Holds cid pid serial) : next.Once cid where
  attached := attached
  held pid serial holds := by
    rw [sameAccepted, sameAdded]
    exact once.held pid serial (fewer _ _ holds)
  apart pid o serial holds otherHolds :=
    once.apart pid o serial (fewer _ _ holds) (fewer _ _ otherHolds)
  recorded := by
    rw [sameAccepted, sameAdded]
    exact once.recorded
  once := by
    rw [sameAdded]
    exact once.once

theorem Once.accept (ho : s.Once cid) (ha : next.Attached cid)
    (oneMore : next.accepted = s.accepted + 1) (addedEq : next.added = s.added)
    (newID : PacketID)
    (origin : ∀ pid serial, next.Holds cid pid serial →
      s.Holds cid pid serial ∨ pid = newID ∧ serial = s.accepted) :
    next.Once cid := by
  have unqueued (client : ClientID) : (s.accepted, client) ∉ s.added :=
    fun hq => absurd (ho.recorded _ hq) (lt_irrefl _)
  have notHeld {pid : PacketID} (hh : s.Holds cid pid s.accepted) : False :=
    absurd (ho.held _ _ hh).1 (lt_irrefl _)
  constructor
  · exact ha
  · intro pid serial hh
    rw [oneMore, addedEq]
    rcases origin pid serial hh with old | ⟨-, rfl⟩
    · exact ⟨Nat.lt_succ_of_lt (ho.held _ _ old).1, (ho.held _ _ old).2⟩
    · exact ⟨Nat.lt_succ_self _, unqueued⟩
  · intro pid o serial hh holds'
    rcases origin pid serial hh with old | ⟨rfl, rfl⟩
    · rcases origin o serial holds' with old' | ⟨-, rfl⟩
      · exact ho.apart pid o serial old old'
      · exact (notHeld old).elim
    · rcases origin o _ holds' with old' | ⟨rfl, -⟩
      · exact (notHeld old').elim
      · rfl
  · intro task hq
    rw [addedEq] at hq
    rw [oneMore]
    exact Nat.lt_succ_of_lt (ho.recorded task hq)
  · rw [addedEq]
    exact ho.once

theorem Once.route (ho : s.Once cid) (ha : next.Attached cid)
    (okEq : next.accepted = s.accepted) {pid : PacketID} {serial : Nat}
    (hh : s.Holds cid pid serial) {clients : List ClientID}
    (hd : clients.Nodup) (hq : next.added = clients.map (Prod.mk serial) ++ s.added)
    (hg : ∀ o num, next.Holds cid o num → s.Holds cid o num ∧ o ≠ pid) : next.Once cid := by
  obtain ⟨bound, unqueued⟩ := ho.held pid serial hh
  constructor
  · exact ha
  · intro o num holds'
    obtain ⟨old, hne⟩ := hg o num holds'
    obtain ⟨oldBounded, fresh⟩ := ho.held o num old
    rw [okEq, hq]
    refine ⟨oldBounded, fun client hm => ?_⟩
    rcases mem_append.mp hm with new | hb
    · obtain ⟨_, -, he⟩ := mem_map.mp new
      rw [← (Prod.mk.inj he).1] at old
      exact hne (ho.apart o pid serial old hh)
    · exact fresh client hb
  · intro first second num firstHolds secondHolds
    exact ho.apart first second num (hg _ _ firstHolds).1 (hg _ _ secondHolds).1
  · intro task hm
    rw [hq] at hm
    rw [okEq]
    rcases mem_append.mp hm with new | hb
    · obtain ⟨_, -, rfl⟩ := mem_map.mp new
      exact bound
    · exact ho.recorded task hb
  · rw [hq]
    refine nodup_append.mpr ⟨?_, ho.once, ?_⟩
    · exact hd.map (Prod.mk_right_injective serial)
    · intro task new o hb he
      obtain ⟨client, -, rfl⟩ := mem_map.mp new
      exact unqueued client (he ▸ hb)

theorem holds_within {table : QoS2ReceiveStore} (hw : table.Within conn.qos2)
    (hc : s.connection = some conn) {wait : Waiting} (hs : wait ∈ table) :
    s.Holds cid wait.packetID wait.message.serial := by
  obtain ⟨old, hm, idEq, msgEq⟩ := hw wait hs
  exact .inl ⟨conn, hc, old, hm, idEq, by rw [msgEq]⟩

theorem Quiet.once (hq : Quiet s next conn) (ho : s.Once cid)
    (hc : s.connection = some conn) : next.Once cid := by
  have ha := hq.attached ho.attached hc
  obtain ⟨table, open_, exchange, hw, rfl⟩ := hq
  refine ho.shrink ha rfl rfl fun pid serial hh => ?_
  rcases hh with ⟨after, he, wait, hs, rfl, rfl⟩ | saved
  · cases he
    exact holds_within hw hc hs
  · exact .inr saved

theorem Accepts.once {packet : Publish} {answers : PublishAnswers}
    (takes : Accepts cid s next conn packet answers) (ho : s.Once cid)
    (hc : s.connection = some conn) : next.Once cid := by
  have ha := takes.attached ho.attached hc
  obtain ⟨-, table, sessions, hw, stays, rfl⟩ := takes
  obtain ⟨-, saved⟩ := persist_spec ho.attached hc stays
  refine ho.accept ha rfl rfl packet.packetID fun pid serial hh => ?_
  rcases hh with ⟨after, he, wait, hs, rfl, rfl⟩ | ⟨msg, hi, rfl, rfl⟩
  · cases he
    rcases QoS2ReceiveStore.mem_store hs with ⟨old, hm, idEq, msgEq⟩ | rfl
    · rw [← idEq, ← msgEq]
      exact .inl (holds_within hw hc hm)
    · exact .inr ⟨rfl, rfl⟩
  · have flagEq : shouldPersistIncomingQoS2 cid { conn with qos2 := table } =
        shouldPersistIncomingQoS2 cid conn := rfl
    simp only [acceptPublish, answer, flagEq] at hi ⊢
    cases hp : shouldPersistIncomingQoS2 cid conn with
    | false =>
      simp only [hp] at saved ⊢
      have he : sessions = s.sessions := saved
      exact .inl (.inr ⟨msg, he ▸ hi, rfl, rfl⟩)
    | true =>
      simp only [hp, if_true] at saved ⊢
      rcases (saved.2 msg).mp hi with ⟨old, hne⟩ | rfl
      · refine .inl (.inr ⟨msg, old, rfl, ?_⟩)
        rw [Function.update_of_ne hne]
      · refine .inr ⟨rfl, ?_⟩
        exact Function.update_self _ _ _

theorem Releases.once {pid : PacketID} {out : PubrelOutcome} {msg : IncomingMessage}
    {code : Nat} (frees : Releases cid s next conn pid out msg)
    (hf : conn.qos2.read pid = some msg)
    (hd : (out.routing.plans.map ClientPlan.clientID).Nodup)
    (ends : s.Settles cid (.pubrel pid code out)) (ho : s.Once cid)
    (hc : s.connection = some conn) : next.Once cid := by
  have ha := frees.attached ho.attached hc
  obtain ⟨ds, added, routes, ⟨clients, hq, origin, nodup⟩, result⟩ := frees
  have hh : s.Holds cid pid msg.serial := by
    obtain ⟨wait, hs, rfl⟩ := Option.map_eq_some_iff.mp hf
    obtain ⟨hm, idEq⟩ := KeyedTable.get_eq_some_iff.mp hs
    exact .inl ⟨conn, hc, wait, hm, idEq, rfl⟩
  have base : Attached cid { s with deliveries := ds, added := added, routes := routes } :=
    ⟨ho.attached.live, ho.attached.owned, ho.attached.saved⟩
  rcases result with ⟨rfl, fails⟩ | ⟨sessions, hr, rfl⟩
  · have hn : added = s.added := by
      rcases fails with he | failed
      · exact he
      · cases clients with
        | nil => simpa using hq
        | cons client rest =>
          obtain ⟨plan, hp, rfl, appended⟩ := origin client mem_cons_self
          obtain ⟨all, cut, -⟩ := ends ⟨plan, hp, appended⟩
          rcases failed with ⟨missed, missedPlanned, lost⟩ | failedRemoval
          · rw [all missed missedPlanned] at lost
            cases lost
          · rw [cut] at failedRemoval
            exact absurd failedRemoval remove_ne_none
    refine ho.shrink ha rfl hn fun o num holds => ?_
    rcases holds with ⟨after, he, wait, hs, rfl, rfl⟩ | saved
    · cases he
      exact holds_within (.refl _) hc hs
    · exact .inr saved
  · obtain ⟨-, inIff⟩ := remove_spec base hc hr
    have fewer (o : PacketID) (num : Nat) (holds : Holds cid
        (completePubRel { s with deliveries := ds, added := added, routes := routes }
          conn pid sessions) o num) :
        s.Holds cid o num ∧ (o = pid → ∃ saved, s.sessions.Incoming cid saved ∧
            saved.packetID = pid ∧
            shouldPersistIncomingQoS2 cid conn = false) := by
      rcases holds with ⟨after, he, wait, hs, rfl, rfl⟩ | ⟨saved, hi, rfl, rfl⟩
      · cases he
        obtain ⟨hm, hne⟩ := KeyedTable.mem_erase.mp hs
        exact ⟨holds_within (.refl _) hc hm, fun clash => absurd clash hne⟩
      · obtain ⟨old, hk⟩ := (inIff saved).mp hi
        refine ⟨.inr ⟨saved, old, rfl, rfl⟩, fun clash => ⟨saved, old, clash, ?_⟩⟩
        exact Bool.eq_false_of_not_eq_true fun stays => hk stays clash
    cases clients with
    | nil =>
      exact ho.shrink ha rfl hq fun o num holds => (fewer _ _ holds).1
    | cons client rest =>
      obtain ⟨plan, hp, rfl, appended⟩ := origin client mem_cons_self
      obtain ⟨-, -, carried⟩ := ends ⟨plan, hp, appended⟩
      refine ho.route ha rfl hh (nodup hd) hq fun o num holds => ?_
      obtain ⟨old, left⟩ := fewer o num holds
      refine ⟨old, fun clash => ?_⟩
      obtain ⟨saved, hi, idEq, quiet⟩ := left clash
      rcases carried conn hc with active | hn
      · rw [quiet] at active
        cases active
      · exact hn saved hi idEq

theorem connect_once (ho : s.Once cid) {tok : OwnerToken}
    {ival receiveMaximum : Nat} {freshID : PacketID → UUID}
    (ht : s.connect cid tok ival receiveMaximum freshID = some next) : next.Once cid := by
  have ha := connect_attached ho.attached ht
  obtain ⟨opened, resp, hd, rfl⟩ := connect_eq_some ht
  refine ho.shrink ha rfl rfl fun packetID serial holds => ?_
  rcases holds with ⟨after, he, wait, hs, rfl, rfl⟩ | ⟨msg, hi, rfl, rfl⟩
  · cases he
    rcases QoS2ReceiveStore.mem_foldl_store hs with ⟨_, none, -⟩ | ⟨msg, hm, idEq, he⟩
    · cases none
    · obtain ⟨unf, saved, hr⟩ := mem_filterMap.mp hm
      obtain ⟨isIn, serial, -, -, packet, hp, exact⟩ := restoredIncoming_eq_some hr
      have spec := Core.openSessionForConnect_incoming unf hd
      have old := (spec.2.1 (spec.1.mp ⟨saved, isIn⟩)).1
      obtain ⟨hn, -, -, pub, too, packetID, -⟩ := ho.attached.saved unf old
      rw [hp] at too
      cases too
      have hh : unf.packetID = wait.packetID := by
        rw [← idEq, exact (packetID ▸ hn), packetID]
      refine .inr ⟨unf, old, hh, ?_⟩
      rw [← hh, ← he, serial]
  · have spec := Core.openSessionForConnect_incoming msg hd
    exact .inr ⟨msg, (spec.2.1 hi).1, rfl, rfl⟩

theorem disconnect_once (ho : s.Once cid) (hc : s.connection = some conn)
    {ival : Nat} {outgoing : List UnfinishedMessage}
    (ht : s.disconnect cid conn ival outgoing = some next) :
    next.Once cid := by
  have ha := disconnect_attached ho.attached hc ht
  obtain ⟨-, allOut, saved, hd, rfl⟩ := disconnect_eq_some ht
  refine ho.shrink ha rfl rfl fun pid serial hh => ?_
  rcases hh with ⟨after, none, -⟩ | ⟨msg, hi, rfl, rfl⟩
  · cases none
  · have hk := (Core.saveOfflineState_incoming (ho.attached.owned conn hc) allOut hd).mp hi
    exact .inr ⟨msg, hk.2, rfl, rfl⟩

theorem Untouched.once (hu : Untouched cid s next) (ho : s.Once cid)
    (ha : next.Attached cid) : next.Once cid := by
  obtain ⟨sessions, rfl, -, inIff⟩ := hu
  refine ho.shrink ha rfl rfl fun pid serial hh => ?_
  refine hh.imp id fun ⟨msg, hi, hr⟩ => ?_
  exact ⟨msg, (inIff msg).mp hi, hr⟩

theorem step_once {label : UplinkLabel} (ho : s.Once cid)
    (ends : s.Settles cid label) (ht : (uplink cid).step s label = some next) :
    next.Once cid := by
  have ha := step_attached ho.attached ht
  cases moves_of_step ht with
  | wait he | environment he =>
    subst he
    exact ho.shrink ha rfl rfl fun _ _ hh => hh
  | connect _ open' => exact connect_once ho open'
  | disconnect hc closed => exact disconnect_once ho hc closed
  | drop hc he =>
    subst he
    refine ho.shrink ha rfl rfl fun pid serial hh => ?_
    rcases hh with ⟨_, none, -⟩ | hs
    · cases none
    · exact .inr hs
  | commitOutgoing hc hw =>
    exact (commitOutgoing_untouched ho.attached hc hw).once ho ha
  | removeOutgoing hc hw =>
    exact (removeOutgoing_untouched ho.attached hc hw).once ho ha
  | publish hc _ he =>
    subst he
    rcases handlePublish_cases hc _ _ with hq | takes
    · exact hq.once ho hc
    · exact takes.once ho hc
  | pubrel hc hd he =>
    subst he
    rcases handlePubRel_cases _ _ _ with ⟨exchange, heq⟩ | ⟨msg, hf, hr⟩
    · rw [heq] at ha ⊢
      exact ho.shrink ha rfl rfl fun _ _ hh => hh
    · exact hr.once hf hd ends ho hc

theorem initial_once {sessions : Core} (gone : sessions.sessions cid = none)
    (ds : DeliveryStore) : (initial sessions ds).Once cid := by
  have hn (pid : PacketID) (serial : Nat) : ¬ (initial sessions ds).Holds cid pid serial := by
    rintro (⟨_, none, -⟩ | ⟨msg, hi, -⟩)
    · cases none
    · exact Core.not_incoming_of_none gone hi
  constructor
  · exact initial_attached gone ds
  · exact fun pid serial hh => (hn pid serial hh).elim
  · exact fun pid _ serial hh => (hn pid serial hh).elim
  · exact nofun
  · exact nodup_nil

/-- In a run whose PUBRELs settle, every accepted QoS 2 PUBLISH adds at most one delivery
task to the queue of each client. -/
theorem added_once {sessions : Core} (noSession : sessions.sessions cid = none)
    {deliveries : DeliveryStore}
    (reached : (uplink cid).Reached (Settles cid) (initial sessions deliveries) s) :
    s.added.Nodup := by
  have ho := reached.invariant (initial_once noSession deliveries)
    fun _ _ _ ho hs ht => step_once ho hs ht
  exact ho.once

theorem added_once_alice :
    ∃ s, (uplink "alice").Reached (Settles "alice") (initial .empty fun _ => .empty) s ∧
      s.added = [(0, "bob")] ∧ s.added.Nodup := by
  have he : ∃ s, (uplink "alice").run (initial .empty fun _ => .empty)
      [aliceConnects, alicePublishes [1], alicePublishes [1], aliceReleases true] = some s ∧
      s.added = [(0, "bob")] := ⟨_, rfl, rfl⟩
  obtain ⟨s, he, ha⟩ := he
  have hs (t : Uplink) (hh : t.connection.elim False fun connection =>
      shouldPersistIncomingQoS2 "alice" connection = true) :
      t.Settles "alice" (aliceReleases true) := by
    refine fun _ => ⟨fun _ _ => rfl, rfl, fun connection hc => .inl ?_⟩
    rw [hc] at hh
    exact hh
  have hr : (uplink "alice").Reached (Settles "alice") (initial .empty fun _ => .empty) s :=
    System.reached_of_run he ⟨trivial, trivial, trivial, hs _ rfl, trivial⟩
  exact ⟨s, hr, ha, added_once rfl hr⟩

/-- The removal fails after the routing: the restored copy is queued a second time. -/
theorem added_twice : ∃ s, (uplink "alice").run (initial .empty fun _ => .empty)
        [aliceConnects, alicePublishes [1], aliceReleases false, .disconnect 3600 [], aliceConnects,
          aliceReleases true] = some s ∧
      s.accepted = 1 ∧ s.added = [(0, "bob"), (0, "bob")] :=
  ⟨_, rfl, rfl, rfl⟩

end SkyTree.Client.Uplink
