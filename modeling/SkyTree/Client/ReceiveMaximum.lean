import SkyTree.Client.IncomingSteps

/-!
# The server's Receive Maximum

The broker refuses a QoS 1 or QoS 2 PUBLISH when the table of waiting QoS 2 messages
already has as many entries as its Receive Maximum. The client's count starts at zero with
every connection, and a failing PUBREC ends an exchange. The table starts with the messages
of the session, and a PUBLISH refused for its payload leaves an older message under its
identifier; these come on top of the client's count.
-/

namespace SkyTree.Client

open Foundation Delivery Session Mqtt List KeyedTable

/-- The incoming side with the client's count: the PUBLISH packets, by QoS and identifier,
sent on the current connection and not acknowledged, and the identifiers it does not count
although a message may wait under them: restored by this connection and not sent again on
it, or answered with a failing PUBREC since. -/
structure QuotaRun where
  uplink : Uplink
  outstanding : Finset (Nat × PacketID) := ∅
  uncounted : Finset PacketID := ∅

/-- The broker answers the PUBLISH with PUBACK or a failing PUBREC. -/
def finalReply (connection : IncomingConnection) (packet : Publish) (answers : PublishAnswers) :
    Bool :=
  match answers.prepared, Uplink.repeatedPublish connection packet, answers.admitted with
  | .denied, _, _ => true
  | .accepted, none, .denied => true
  | .accepted, none, .accepted => decide (packet.qos = 1)
  | _, _, _ => false

/-- The PUBLISH gets as far as `trackIncomingPublishQuota` and is counted there. -/
structure Counted (connection : IncomingConnection) (packet : Publish) (answers : PublishAnswers) :
    Prop where
  prepared : answers.prepared = .accepted
  new : Uplink.repeatedPublish connection packet = none
  admitted : answers.admitted = .accepted
  acknowledged : packet.qos = 1 ∨ packet.qos = 2

def ExceedsReceiveMaximum (s : Uplink) (connection : IncomingConnection) (packet : Publish)
    (answers : PublishAnswers) : Prop :=
  Counted connection packet answers ∧ 0 < connection.receiveMaximum ∧
    connection.receiveMaximum ≤ (s.counted connection).qos2.entries.length

/-- A message waits under the identifier that was answered with a failing PUBREC. -/
def failedBefore (connection : IncomingConnection) (packetID : PacketID) : Bool :=
  (connection.qos2.read packetID).any fun stored => mqtt5ReasonCodeIsError stored.ackReasonCode

namespace QuotaRun

variable (s : QuotaRun)

def afterPublish (connection : IncomingConnection) (packet : Publish)
    (answers : PublishAnswers) (next : Uplink) : QuotaRun :=
  if packet.qos = 0 then { s with uplink := next }
  else if finalReply connection packet answers then
    { uplink := next
      outstanding := s.outstanding.erase (packet.qos, packet.packetID)
      uncounted := if packet.qos = 2 then insert packet.packetID s.uncounted else s.uncounted }
  else
    { uplink := next
      outstanding := insert (packet.qos, packet.packetID) s.outstanding
      uncounted :=
        if packet.qos = 2 ∧ failedBefore connection packet.packetID = false then
          s.uncounted.erase packet.packetID
        else s.uncounted }

def after (label : UplinkLabel) (next : Uplink) : QuotaRun :=
  match label, s.uplink.connection, next.connection with
  | .connect _ _ _ _, _, some connection =>
    { uplink := next
      uncounted := (connection.qos2.entries.map Waiting.packetID).toFinset }
  | .publish packet answers, some connection, _ => s.afterPublish connection packet answers next
  | .pubrel packetID _ _, _, _ =>
    { s with uplink := next, outstanding := s.outstanding.erase (2, packetID) }
  | _, _, _ => { s with uplink := next }

/-- The waiting messages that the client does not count. -/
def uncountedWaiting (connection : IncomingConnection) : Nat :=
  ((s.uplink.counted connection).qos2.entries.filter fun waiting =>
    waiting.packetID ∈ s.uncounted).length

def Claims (waiting : Waiting) : Prop :=
  waiting.packetID ∈ s.uncounted ∨
    ((2, waiting.packetID) ∈ s.outstanding ∧
      mqtt5ReasonCodeIsError waiting.message.ackReasonCode = false)

def Accounted : Prop :=
  ∀ connection, s.uplink.connection = some connection → connection.open_ = true →
    ∀ waiting ∈ connection.qos2, s.Claims waiting

end QuotaRun

def quota (clientID : ClientID) : System QuotaRun UplinkLabel where
  step s label := ((uplink clientID).step s.uplink label).map (s.after label)

namespace QuotaRun

variable {cid : ClientID} {s : QuotaRun} {conn : IncomingConnection} {pkt : Publish}
  {ans : PublishAnswers} {waiting : Waiting}

/-- A final answer takes the PUBLISH off the count, any other answer puts it on it. -/
theorem Claims.afterPublish {next : Uplink} (claims : s.Claims waiting)
    (success : pkt.qos = 2 → waiting.packetID = pkt.packetID →
      failedBefore conn pkt.packetID = false →
      mqtt5ReasonCodeIsError waiting.message.ackReasonCode = false) :
    (s.afterPublish conn pkt ans next).Claims waiting := by
  unfold QuotaRun.afterPublish QuotaRun.Claims
  split_ifs with qos0 final qos2 unfailed
  · exact claims
  · by_cases same : waiting.packetID = pkt.packetID
    · exact .inl (by simp [same])
    · rcases claims with uncounted | ⟨counted, fine⟩
      · exact .inl (Finset.mem_insert_of_mem uncounted)
      · exact .inr ⟨Finset.mem_erase.mpr ⟨by simp [same], counted⟩, fine⟩
  · refine claims.imp_right fun ⟨counted, fine⟩ => ⟨Finset.mem_erase.mpr ⟨?_, counted⟩, fine⟩
    simp [Ne.symm qos2]
  · by_cases same : waiting.packetID = pkt.packetID
    · exact .inr ⟨by simp [unfailed.1, same], success unfailed.1 same unfailed.2⟩
    · exact claims.imp (fun uncounted => by simp [same, uncounted])
        fun ⟨counted, fine⟩ => ⟨Finset.mem_insert_of_mem counted, fine⟩
  · exact claims.imp_right fun ⟨counted, fine⟩ => ⟨Finset.mem_insert_of_mem counted, fine⟩

theorem claims_new {next : Uplink} {u : Uplink} {clock : Nat} (qos : pkt.qos = 2)
    (pending : finalReply conn pkt ans = false) :
    (s.afterPublish conn pkt ans next).Claims
      ⟨(u.newIncoming pkt ans).publish.packetID, u.newIncoming pkt ans, clock⟩ := by
  refine .inr ⟨?_, ?_⟩
  · unfold QuotaRun.afterPublish
    rw [if_neg (by simp [qos]), if_neg (by simp [pending])]
    simp [qos, Uplink.newIncoming]
  · unfold Uplink.newIncoming
    dsimp only
    split <;> decide

@[simp] theorem afterPublish_uplink (next : Uplink) :
    (s.afterPublish conn pkt ans next).uplink = next := by
  unfold afterPublish
  split
  · rfl
  · split <;> rfl

theorem accounted_of_fail {t : QuotaRun} {prev : Uplink}
    (ended : t.uplink = prev.fail conn) : t.Accounted := by
  intro cur he isOpen
  rw [ended] at he
  cases he
  nomatch isOpen

variable {next : Uplink}

theorem accounted_afterPublish {after : IncomingConnection} (current : next.connection = some after)
    (claims : ∀ waiting ∈ after.qos2, (s.afterPublish conn pkt ans next).Claims waiting) :
    (s.afterPublish conn pkt ans next).Accounted := by
  intro other same _ waiting member
  rw [afterPublish_uplink, current] at same
  cases same
  exact claims waiting member

theorem Claims.congr {a b : Waiting} (claims : s.Claims a) (packetID : a.packetID = b.packetID)
    (message : a.message = b.message) : s.Claims b := by
  unfold QuotaRun.Claims
  rw [← packetID, ← message]
  exact claims

variable {u : Uplink}

theorem mem_counted (member : waiting ∈ (u.counted conn).qos2) : waiting ∈ conn.qos2 :=
  (KeyedTable.mem_filter.mp member).1

section Publish

variable (acc : s.Accounted) (cur : s.uplink.connection = some conn)
  (isOpen : conn.open_ = true)

include acc cur isOpen

theorem Accounted.claims_afterPublish (next : Uplink) {waiting : Waiting}
    (member : waiting ∈ conn.qos2) : (s.afterPublish conn pkt ans next).Claims waiting := by
  refine (acc conn cur isOpen waiting member).afterPublish fun _ same unfailed => ?_
  have found : conn.qos2.get pkt.packetID = some waiting := get_eq_some_iff.mpr ⟨member, same⟩
  simpa [failedBefore, QoS2ReceiveStore.read, found] using unfailed

theorem Accounted.unchanged (kept : next.connection = some conn) :
    (s.afterPublish conn pkt ans next).Accounted :=
  accounted_afterPublish kept fun _ member => acc.claims_afterPublish cur isOpen next member

theorem Accounted.admitted (prepared : ans.prepared = .accepted)
    (new : Uplink.repeatedPublish conn pkt = none) :
    (s.afterPublish conn pkt ans (s.uplink.admitPublish cid conn pkt ans)).Accounted := by
  unfold Uplink.admitPublish
  split
  next => exact accounted_of_fail (afterPublish_uplink _)
  next => exact acc.unchanged cur isOpen cur
  next accepted =>
    split_ifs with other exceeds qos
    · exact acc.unchanged cur isOpen cur
    · exact accounted_of_fail (afterPublish_uplink _)
    · have pending : finalReply conn pkt ans = false := by
        simp [finalReply, prepared, new, accepted, qos]
      unfold Uplink.storeQoS2Publish
      dsimp only
      split
      · exact accounted_of_fail (afterPublish_uplink _)
      · refine accounted_afterPublish rfl fun waiting member => ?_
        rcases QoS2ReceiveStore.mem_store member with ⟨old, kept, packetID, message⟩ | rfl
        · exact (acc.claims_afterPublish cur isOpen _ (mem_counted kept)).congr packetID message
        · exact claims_new qos pending
    · exact accounted_afterPublish rfl fun waiting member =>
        acc.claims_afterPublish cur isOpen _ (mem_counted member)

theorem Accounted.publish :
    (s.afterPublish conn pkt ans (s.uplink.handlePublish cid conn pkt ans)).Accounted := by
  unfold Uplink.handlePublish
  split
  next => exact accounted_of_fail (afterPublish_uplink _)
  next => exact acc.unchanged cur isOpen cur
  next prepared =>
    split
    next => exact acc.unchanged cur isOpen cur
    next new => exact acc.admitted cur isOpen prepared new

end Publish

theorem Accounted.finishPubRel (acc : s.Accounted)
    (cur : s.uplink.connection = some conn) (isOpen : conn.open_ = true)
    (base : Uplink) (pid : PacketID) (removed : Bool) :
    Accounted { s with
      uplink := base.finishPubRel cid conn pid removed
      outstanding := s.outstanding.erase (2, pid) } := by
  rcases Uplink.finishPubRel_cases cid base conn pid removed with
    ⟨hf, -⟩ | ⟨sessions, -, ended⟩
  · exact accounted_of_fail hf
  · intro o he _ waiting hw
    obtain rfl := Option.some.inj ((congrArg Uplink.connection ended).symm.trans he)
    obtain ⟨old, hne⟩ := mem_erase.mp hw
    refine (acc conn cur isOpen waiting old).imp_right fun hc => ?_
    exact ⟨Finset.mem_erase.mpr ⟨by simp [hne], hc.1⟩, hc.2⟩

theorem Accounted.pubrel (acc : s.Accounted) (cur : s.uplink.connection = some conn)
    (isOpen : conn.open_ = true) (pid : PacketID) (reasonCode : Nat)
    (out : PubrelOutcome) :
    Accounted { s with
      uplink := s.uplink.handlePubRel cid conn pid reasonCode out
      outstanding := s.outstanding.erase (2, pid) } := by
  unfold Uplink.handlePubRel
  split
  next absent =>
    have hm : conn.qos2.get pid = none := Option.map_eq_none_iff.mp absent
    intro o he _ waiting hw
    obtain rfl := Option.some.inj (cur.symm.trans he)
    have hne := get_eq_none_iff.mp hm waiting hw
    refine (acc conn cur isOpen waiting hw).imp_right fun hc => ?_
    exact ⟨Finset.mem_erase.mpr ⟨by simp [hne], hc.1⟩, hc.2⟩
  next msg _ =>
    split_ifs
    · exact acc.finishPubRel cur isOpen _ _ _
    · exact accounted_of_fail rfl
    · exact acc.finishPubRel cur isOpen _ _ _
    · dsimp only
      split
      · exact acc.finishPubRel cur isOpen _ _ _
      · exact accounted_of_fail rfl

theorem Accounted.of_connection (acc : s.Accounted)
    (he : next.connection = s.uplink.connection ∨ next.connection = none) :
    Accounted { s with uplink := next } := by
  intro conn cur
  rcases he with hk | hg
  · exact acc conn (hk.symm.trans cur)
  · nomatch hg.symm.trans cur

variable {outgoing : List UnfinishedMessage}

theorem disconnect_connection {ival : Nat} (hd : u.disconnect cid conn ival outgoing = some next) :
    next.connection = none := by
  obtain ⟨-, saved⟩ := Option.ite_none_right_eq_some.mp hd
  split at saved
  · nomatch saved
  · cases saved
    rfl

theorem commitOutgoing_connection (hd : u.commitOutgoing cid conn outgoing = some next) :
    next.connection = u.connection := by
  obtain ⟨-, hw⟩ := Option.ite_none_right_eq_some.mp hd
  obtain ⟨sessions, -, rfl⟩ := Option.map_eq_some_iff.mp hw
  rfl

theorem accounted_connect (tok : OwnerToken) (ival receiveMaximum : Nat)
    (freshID : PacketID → UUID) :
    (s.after (.connect tok ival receiveMaximum freshID) next).Accounted := by
  unfold QuotaRun.after
  cases ho : next.connection with
  | none =>
    intro conn cur
    nomatch ho.symm.trans cur
  | some conn =>
    intro o he _ waiting hw
    obtain rfl := Option.some.inj (ho.symm.trans he)
    exact .inl (mem_toFinset.mpr (mem_map_of_mem hw))

theorem publish_enabled (cur : u.connection = some conn)
    (ht : (Client.uplink cid).step u (.publish pkt ans) = some next) :
    conn.open_ = true ∧ (pkt.qos ≠ 0 → pkt.packetID ≠ 0) := by
  simp only [Client.uplink, cur] at ht
  exact (Option.ite_none_right_eq_some.mp ht).1

theorem Accounted.step {next : QuotaRun} {label : UplinkLabel} (acc : s.Accounted)
    (ht : (quota cid).step s label = some next) :
    next.Accounted := by
  obtain ⟨after, hm, rfl⟩ := Option.map_eq_some_iff.mp ht
  cases Uplink.moves_of_step hm with
  | wait he | environment he =>
    subst he
    exact acc.of_connection (.inl rfl)
  | connect _ _ => exact accounted_connect _ _ _ _
  | disconnect _ hc => exact acc.of_connection (.inr (disconnect_connection hc))
  | drop _ he =>
    subst he
    exact acc.of_connection (.inr rfl)
  | commitOutgoing _ hw =>
    exact acc.of_connection (.inl (commitOutgoing_connection hw))
  | removeOutgoing _ hw =>
    obtain ⟨sessions, -, rfl⟩ := Option.map_eq_some_iff.mp hw
    exact acc.of_connection (.inl rfl)
  | publish cur _ he =>
    obtain ⟨isOpen, -⟩ := publish_enabled cur hm
    subst he
    simp only [QuotaRun.after, cur]
    exact acc.publish cur isOpen
  | pubrel cur _ he =>
    simp only [Client.uplink, cur] at hm
    have isOpen := (Option.ite_none_right_eq_some.mp hm).1.1
    subst he
    exact acc.pubrel cur isOpen _ _ _

theorem Accounted.length_lt (acc : s.Accounted) (cur : s.uplink.connection = some conn)
    (isOpen : conn.open_ = true) (named : pkt.qos ≠ 0 → pkt.packetID ≠ 0)
    (counted : Counted conn pkt ans) :
    (s.uplink.counted conn).qos2.entries.length <
      s.uncountedWaiting conn + (insert (pkt.qos, pkt.packetID) s.outstanding).card := by
  let table := (s.uplink.counted conn).qos2
  let own := table.entries.filter fun waiting => ¬ waiting.packetID ∈ s.uncounted
  have split : table.entries.length = s.uncountedWaiting conn + own.length := by
    rw [table.entries.length_eq_length_filter_add fun waiting => waiting.packetID ∈ s.uncounted]
    simp [own, uncountedWaiting, table]
  have distinct : (own.map fun waiting => (2, waiting.packetID)).Nodup := by
    have pairs := table.distinct.map (Prod.mk_right_injective 2)
    rw [map_map] at pairs
    exact pairs.sublist (filter_sublist.map _)
  have onCount : ∀ waiting ∈ own, (2, waiting.packetID) ∈ s.outstanding ∧
      (pkt.qos = 2 → waiting.packetID ≠ pkt.packetID) := by
    intro waiting member
    obtain ⟨stored, unknown⟩ := List.mem_filter.mp member
    obtain ⟨sent, success⟩ :=
      (acc conn cur isOpen waiting (mem_counted stored)).resolve_left (by simpa using unknown)
    refine ⟨sent, fun qos same => ?_⟩
    have found := get_eq_some_iff.mpr ⟨mem_counted stored, same⟩
    have new := counted.new
    simp [Uplink.repeatedPublish, qos, named (by simp [qos]), QoS2ReceiveStore.read, found,
      success] at new
  have fresh : (pkt.qos, pkt.packetID) ∉
      (own.map fun waiting => (2, waiting.packetID)).toFinset := by
    intro listed
    obtain ⟨waiting, member, same⟩ := mem_map.mp (mem_toFinset.mp listed)
    obtain ⟨qos, packetID⟩ := Prod.mk.inj same
    exact (onCount waiting member).2 qos.symm packetID
  have covered : insert (pkt.qos, pkt.packetID)
      (own.map fun waiting => (2, waiting.packetID)).toFinset ⊆
        insert (pkt.qos, pkt.packetID) s.outstanding := by
    refine Finset.insert_subset_insert _ fun pair listed => ?_
    obtain ⟨waiting, member, rfl⟩ := mem_map.mp (mem_toFinset.mp listed)
    exact (onCount waiting member).1
  have bound := Finset.card_le_card covered
  rw [Finset.card_insert_of_notMem fresh, toFinset_card_of_nodup distinct, length_map] at bound
  change table.entries.length < _
  omega

def initial (sessions : Core) (deliveries : DeliveryStore) : QuotaRun where
  uplink := .initial sessions deliveries

end QuotaRun

/-- In every run, a client whose PUBLISH packets without acknowledgement keep within the Receive
Maximum together with the waiting messages that it does not count is not disconnected for
exceeding it. -/
theorem compliant_not_disconnected {clientID : ClientID} {sessions : Core}
    {deliveries : DeliveryStore} {s next : QuotaRun} {connection : IncomingConnection}
    {packet : Publish} {answers : PublishAnswers}
    (reached : (quota clientID).Reached (fun _ _ => True) (.initial sessions deliveries) s)
    (current : s.uplink.connection = some connection)
    (taken : (quota clientID).step s (.publish packet answers) = some next)
    (compliant : s.uncountedWaiting connection +
      (insert (packet.qos, packet.packetID) s.outstanding).card ≤ connection.receiveMaximum) :
    ¬ ExceedsReceiveMaximum s.uplink connection packet answers := by
  rintro ⟨counted, -, full⟩
  have start : (QuotaRun.initial sessions deliveries).Accounted := by
    intro other opened
    nomatch opened
  have accounted := reached.invariant start fun _ _ _ accounted _ taken => accounted.step taken
  obtain ⟨after, moved, -⟩ := Option.map_eq_some_iff.mp taken
  obtain ⟨isOpen, named⟩ := QuotaRun.publish_enabled current moved
  exact absurd (full.trans_lt (accounted.length_lt current isOpen named counted))
    compliant.not_gt

namespace QuotaRun

def aliceConnects (maximum : Nat) : UplinkLabel :=
  .connect "token" 3600 maximum fun packetID => packetID + 100

def alicePacket (qos : Nat) (packetID : PacketID) : Publish :=
  { topic := "news", payload := [1], qos := qos, packetID := packetID }

def aliceSends (qos : Nat) (packetID : PacketID) : UplinkLabel :=
  .publish (alicePacket qos packetID) { messageID := packetID + 6 }

/-- A message restored after a loss of the connection and a PUBLISH next to it, under a
Receive Maximum of two. -/
theorem compliant_not_disconnected_restored : ∃ s connection next,
    (quota "alice").run (.initial .empty fun _ => .empty)
      [aliceConnects 2, aliceSends 2 1, .drop, aliceConnects 2] = some s ∧
    s.uplink.connection = some connection ∧ s.uncountedWaiting connection = 1 ∧
    (quota "alice").step s (aliceSends 1 2) = some next ∧
    ¬ ExceedsReceiveMaximum s.uplink connection (alicePacket 1 2) { messageID := 8 } := by
  have evaluated : ∃ s connection next, (quota "alice").run (.initial .empty fun _ => .empty)
      [aliceConnects 2, aliceSends 2 1, .drop, aliceConnects 2] = some s ∧
      s.uplink.connection = some connection ∧ s.uncountedWaiting connection = 1 ∧
      (quota "alice").step s (aliceSends 1 2) = some next ∧
      s.uncountedWaiting connection + (insert (1, 2) s.outstanding).card ≤
        connection.receiveMaximum :=
    ⟨_, _, _, rfl, rfl, by decide, rfl, by decide⟩
  obtain ⟨s, connection, next, run, current, waiting, taken, compliant⟩ := evaluated
  exact ⟨s, connection, next, run, current, waiting, taken, compliant_not_disconnected
    (System.reached_of_run run (.of_forall fun _ _ _ => trivial)) current taken compliant⟩

/-- A message that waits since an earlier connection uses up the Receive Maximum of one:
the first PUBLISH on the new connection ends it. -/
theorem restored_message_exceeds : ∃ s connection next,
      (quota "alice").run (.initial .empty fun _ => .empty)
        [aliceConnects 1, aliceSends 2 1, .drop, aliceConnects 1] = some s ∧
      s.uplink.connection = some connection ∧ s.outstanding = ∅ ∧
      (insert (1, 2) s.outstanding).card ≤ connection.receiveMaximum ∧
      ExceedsReceiveMaximum s.uplink connection (alicePacket 1 2) { messageID := 8 } ∧
      (quota "alice").step s (aliceSends 1 2) = some next ∧
      next.uplink.connection.map IncomingConnection.open_ = some false :=
  ⟨_, _, _, rfl, rfl, rfl, by decide, ⟨⟨rfl, rfl, rfl, .inl rfl⟩, by decide, by decide⟩, rfl, rfl⟩

end QuotaRun

end SkyTree.Client
