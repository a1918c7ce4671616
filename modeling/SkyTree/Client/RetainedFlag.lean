import SkyTree.Client.OutboundSteps
import SkyTree.Client.RetainedOptions

/-!
# The RETAIN flag of retained messages

The packet of a retained send is kept with its in-flight entry, saved with the session and
written again from there, on a retransmission or after a reconnect. So every copy has the
flag of its first send, which is the Retain As Published option of the subscription that won
at that moment, whatever is subscribed later.
-/

namespace SkyTree.Client

open Foundation Delivery Delivery.Router Subscription List Option InflightTable Downlink
  SkyTree.Session SkyTree.Mqtt SkyTree.Retain

/-! ## The packets of a session -/

namespace Outbound

structure Carries (P : Publish → Prop) (s : Outbound) : Prop where
  inflight : ∀ entry ∈ s.downlink.inflight, ∀ packet ∈ entry.publishPacket, P packet
  pending : ∀ runner entry held, s.runner = some runner →
    runner.pending = some (.retransmission entry held) →
    ∀ packet ∈ entry.publishPacket, P packet
  saved : ∀ message ∈ s.saved.unfinishedMessages, ∀ packet ∈ message.publishPacket, P packet

variable {P : Publish → Prop} {s next : Outbound}

theorem Carries.mono {Q : Publish → Prop} (carried : s.Carries P)
    (weaker : ∀ packet, P packet → Q packet) : s.Carries Q where
  inflight entry member packet kept := weaker packet (carried.inflight entry member packet kept)
  pending runner entry held current writes packet kept :=
    weaker packet (carried.pending runner entry held current writes packet kept)
  saved message member packet kept := weaker packet (carried.saved message member packet kept)

theorem Carries.narrow (carries : s.Carries P) {table : InflightTable}
    (hn : s.downlink.inflight.Narrows table) :
    ∀ e ∈ table, ∀ packet ∈ e.publishPacket, P packet := by
  intro e hs packet hc
  obtain ⟨old, hm, hd⟩ := hn e hs
  exact carries.inflight old hm packet (hd.publishPacket ▸ hc)

theorem Carries.put (carries : s.Carries P) {e : InflightEntry}
    (new : ∀ packet ∈ e.publishPacket, P packet) :
    ∀ stored ∈ s.downlink.inflight.put e, ∀ packet ∈ stored.publishPacket, P packet := by
  intro stored hm packet hc
  rcases KeyedTable.mem_put.mp hm with ⟨old, -⟩ | rfl
  · exact carries.inflight stored old packet hc
  · exact new packet hc

theorem Carries.collect (carries : s.Carries P) (now : Nat) :
    ∀ msg ∈ (s.collect now).unfinishedMessages, ∀ packet ∈ msg.publishPacket, P packet := by
  intro msg saved packet hc
  obtain ⟨e, hs, hk⟩ := mem_filterMap.mp saved
  obtain ⟨state, rfl, -⟩ := unfinished_eq_some hk
  exact carries.inflight e hs packet hc

structure RestoresFrom (messages : List UnfinishedMessage) (restoring : Restoring) : Prop where
  inflight : ∀ entry ∈ restoring.inflight, ∀ packet ∈ entry.publishPacket,
    ∃ message ∈ messages, packet ∈ message.publishPacket
  sent : ∀ entry, Transmission.publish entry ∈ restoring.sent → ∀ packet ∈ entry.publishPacket,
    ∃ message ∈ messages, packet ∈ message.publishPacket

theorem publishPacket_of_restoredEntry {env : RestoreEnvironment} {queue : ClientQueue}
    {msg : UnfinishedMessage} {e : InflightEntry}
    (hb : restoredEntry env queue msg = some e) :
    ∀ packet ∈ e.publishPacket, packet ∈ msg.publishPacket := by
  unfold restoredEntry at hb
  split at hb
  · cases hb
  · split at hb
    · cases hb
      exact fun _ hc => hc
    · split at hb
      · cases hb
      · obtain ⟨task, -, rfl⟩ := map_eq_some_iff.mp hb
        exact fun _ hc => nomatch hc

theorem RestoresFrom.restoreOne {msgs : List UnfinishedMessage} {restoring : Restoring}
    (hr : RestoresFrom msgs restoring) {env : RestoreEnvironment}
    {queue : ClientQueue} {msg : UnfinishedMessage} (hm : msg ∈ msgs) :
    RestoresFrom msgs (restoreOneOutgoingInflight env queue restoring msg) := by
  unfold restoreOneOutgoingInflight
  split
  · split
    · exact hr
    · rename_i e built
      have ho := publishPacket_of_restoredEntry built
      obtain ⟨bkt, registered⟩ := register_eq restoring e
      have ht : ∀ stored ∈ (restoring.register e).1.inflight,
          ∀ packet ∈ stored.publishPacket, ∃ source ∈ msgs, packet ∈ source.publishPacket := by
        rw [registered]
        intro stored hi packet hc
        rcases KeyedTable.mem_put.mp hi with ⟨old, -⟩ | rfl
        · exact hr.inflight stored old packet hc
        · exact ⟨msg, hm, ho packet hc⟩
      have hk : ∀ o, Transmission.publish o ∈ (restoring.register e).1.sent →
          ∀ packet ∈ o.publishPacket, ∃ source ∈ msgs, packet ∈ source.publishPacket := by
        rw [registered]
        exact hr.sent
      dsimp only
      split
      · unfold Restoring.transmit
        split_ifs
        · refine ⟨ht, fun o hi => ?_⟩
          rcases mem_append.mp hi with old | new
          · exact hk o old
          · cases mem_singleton.mp new
        · exact ⟨ht, hk⟩
        · refine ⟨ht, fun o hi packet hc => ?_⟩
          rcases mem_append.mp hi with old | new
          · exact hk o old packet hc
          · cases mem_singleton.mp new
            exact ⟨msg, hm, ho packet hc⟩
        · exact ⟨ht, hk⟩
      · exact ⟨ht, hk⟩
  · exact hr

theorem restoresFrom_restoring (s : Outbound) (env : RestoreEnvironment) (capacity : Nat) :
    RestoresFrom s.saved.unfinishedMessages (s.restoring env capacity) := by
  have hl (rest : List UnfinishedMessage) (hw : ∀ msg ∈ rest,
      msg ∈ s.saved.unfinishedMessages) (restoring : Restoring)
      (hr : RestoresFrom s.saved.unfinishedMessages restoring) :
      RestoresFrom s.saved.unfinishedMessages
        (rest.foldl (restoreOneOutgoingInflight env s.downlink.queue) restoring) := by
    induction rest generalizing restoring with
    | nil => exact hr
    | cons msg rest ih =>
      exact ih (fun later hm => hw later (mem_cons_of_mem _ hm))
        _ (hr.restoreOne (hw msg mem_cons_self))
  refine hl _ (fun msg hm => ?_) _ ⟨(fun _ hs => nomatch hs), (fun _ hi => nomatch hi)⟩
  exact (mem_outgoingUnfinishedMessages.mp (mem_of_mem_take hm)).1

theorem receivePubRec_narrows {pid : PacketID} {code : Nat}
    (hs : mqtt5ReasonCodeIsError code = false) (adv : Position → Bool)
    (written : Bool) :
    s.downlink.inflight.Narrows (s.receivePubRec pid code adv written).downlink.inflight := by
  have handled : s.downlink.inflight.Narrows (s.downlink.handlePubRec adv pid code).1.inflight := by
    rcases handlePubRec_success s.downlink pid adv hs with
      ⟨-, he, -⟩ | ⟨_, -, he, -⟩ <;> rw [he]
    · exact .refl _
    · exact narrows_updateState
  unfold receivePubRec
  dsimp only
  split <;> exact handled

/-- The runner comes to hold no copy that waits to be written again. -/
theorem Carries.idle (carries : s.Carries P)
    (inflight : ∀ e ∈ next.downlink.inflight, ∀ packet ∈ e.publishPacket, P packet)
    {after : Runner} (runner : next.runner = some after)
    (idle : ∀ e held, after.pending ≠ some (.retransmission e held))
    (saved : next.saved = s.saved) : next.Carries P where
  inflight := inflight
  pending _ e held current writes := by
    rw [runner] at current
    cases current
    exact absurd writes (idle e held)
  saved := saved ▸ carries.saved

theorem Carries.step (carries : s.Carries P) {label : OutboundLabel} (moves : Moves s next label)
    (new : ∀ pid qos ts mid packet, label = .sendRetained pid qos ts mid packet true → P packet) :
    next.Carries P := by
  cases moves <;> subst_vars
  case append =>
    exact ⟨carries.inflight, carries.pending, carries.saved⟩
  case sendRetained _ hr =>
    obtain ⟨-, bkt, -, rfl⟩ := registerEntry_eq_some hr
    refine ⟨carries.put fun packet sent => ?_, carries.pending, carries.saved⟩
    cases sent
    exact new _ _ _ _ _ rfl
  case unsent =>
    exact carries
  case start | written | released | republished =>
    exact carries.idle carries.inflight rfl (by simp) rfl
  case read _ hi | abandon _ hi =>
    exact carries.idle carries.inflight rfl (by simp [hi]) rfl
  case advance _ hi _ =>
    refine carries.idle ?_ rfl (by simp [hi]) rfl
    simpa only [advanceHead, advanceTask_inflight] using carries.inflight
  case register _ _ _ hr =>
    obtain ⟨-, bkt, -, rfl⟩ := registerEntry_eq_some hr
    exact carries.idle (carries.put (by simp [newDeliveryInflightEntry])) rfl (by simp) rfl
  case oversized =>
    refine carries.idle ?_ rfl (by simp) rfl
    simpa only [advanceHead, advanceTask_inflight] using
      carries.narrow releaseEntry_rests.narrows
  case failed =>
    exact carries.idle (carries.narrow releaseEntry_rests.narrows) rfl (by simp) rfl
  case retransmit _ _ first ha =>
    obtain ⟨hn, -, rfl⟩ := acquireRetransmitToken_spec ha
    refine ⟨carries.narrow hn, fun _ _ _ now writes => ?_, carries.saved⟩
    cases now
    cases writes
    exact fun packet sent => carries.inflight _ (firstUnacked_eq_some first).1 packet sent
  case discarded =>
    exact carries.idle (carries.narrow (discardRetransmission_rests _ _).narrows) rfl (by simp) rfl
  case undone =>
    exact carries.idle (carries.narrow (undoRetransmission_rests _ _).narrows) rfl (by simp) rfl
  case completed =>
    exact ⟨carries.narrow (completeTerminal_rests _ _).narrows, carries.pending, carries.saved⟩
  case received _ _ success =>
    refine ⟨carries.narrow (receivePubRec_narrows success _ _), ?_, ?_⟩ <;>
      unfold receivePubRec <;> dsimp only <;> split
    all_goals first | exact carries.pending | exact carries.saved
  case connect =>
    refine ⟨fun e restored packet sent => ?_, fun _ _ _ now => (nomatch now), carries.saved⟩
    obtain ⟨msg, hm, ho⟩ := (restoresFrom_restoring s _ _).inflight e restored packet sent
    exact carries.saved msg hm packet ho
  case disconnect =>
    refine ⟨fun _ stored => (nomatch stored), fun _ _ _ now => (nomatch now), ?_⟩
    cases ‹Option Nat› with
    | none => exact carries.saved
    | some now => exact carries.collect now
  case commit =>
    exact ⟨carries.inflight, carries.pending, carries.collect _⟩
  case removeUnfinished =>
    exact ⟨carries.inflight, carries.pending,
      fun msg kept => carries.saved msg (mem_of_mem_filter kept)⟩

end Outbound

/-! ## Runs with retained sends -/

/-- `retransmitRetainedPublishFromEntry`, and what a restore writes for a retained entry. -/
def InflightEntry.retainedPacket (entry : InflightEntry) : Option Publish :=
  if entry.retained then
    entry.publishPacket.map fun packet =>
      { packet with packetID := entry.packetID, qos := entry.qos, duplicate := true }
  else none

def Transmission.retainedPacket : Transmission → Option Publish
  | .publish entry => entry.retainedPacket
  | .pubrel _ => none

def Outbound.retainedCopies (s : Outbound) : OutboundLabel → List Publish
  | .runner .retransmitted =>
    match s.runner with
    | some { pending := some (.retransmission entry _), .. } =>
      if entry.state = .waitingPubComp then [] else entry.retainedPacket.toList
    | _ => []
  | .session (.connect environment capacity) =>
    (s.restoring environment capacity).sent.filterMap Transmission.retainedPacket
  | _ => []

/-- A retained message as it was first sent, and the subscriptions of that moment. -/
structure FirstSend where
  center : MemorySubCenter
  message : RetainMessage
  publish : Publish

/-- A session next to the subscription center, with the PUBLISH packets that were written
because of retained messages. -/
structure RetainedSession where
  session : Outbound
  center : AgreedCenter := .empty
  firstSends : List FirstSend := []
  copies : List Publish := []

inductive RetainedLabel where
  | center (operation : Subscription.Operation)
  | sendRetained (message : RetainMessage) (packetID : PacketID) (readAt now : Int) (ts : Nat)
      (messageID : UUID) (written : Bool)
  | session (label : OutboundLabel)

def RetainedSession.record (s : RetainedSession) (message : RetainMessage) (publish : Publish) :
    Bool → RetainedSession
  | true =>
    { s with firstSends := ⟨s.center.toMemorySubCenter, message, publish⟩ :: s.firstSends }
  | false => s

/-- Write the packet; above QoS 0 it is first registered, and a failed write gives the
registration up. -/
def RetainedSession.writeRetainedPublish (s : RetainedSession) (message : RetainMessage)
    (packetID : PacketID) (ts : Nat) (messageID : UUID) (publish : Publish) (written : Bool) :
    Option RetainedSession :=
  if publish.qos = 0 then some (s.record message publish written)
  else
    (outbound.step s.session
      (.sendRetained packetID publish.qos ts messageID publish written)).map
      fun session => { s.record message publish written with session := session }

def retainedSession (validUTF8 : List UInt8 → Bool) (clientID : ClientID) :
    System RetainedSession RetainedLabel where
  step s label :=
    match label with
    | .center operation => some { s with center := (s.center.perform operation).1 }
    | .sendRetained message packetID readAt now ts messageID written =>
      if s.session.online = true ∧ message.topic ≠ "" ∧ hasWildcard message.topic = false then
        match retainedPublish validUTF8 s.center.toMemorySubCenter clientID message packetID
            readAt now with
        | none => some s
        | some (publish, _) =>
          s.writeRetainedPublish message packetID ts messageID publish written
      else none
    | .session (.sendRetained ..) => none
    | .session label => (outbound.step s.session label).map fun session =>
      { s with session := session, copies := s.session.retainedCopies label ++ s.copies }

def Wins (center : MemorySubCenter) (clientID publisherClientID : ClientID) (topicName : String)
    (option : SubOption) : Prop :=
  Reaches center clientID publisherClientID topicName option ∧
    ∀ other, Reaches center clientID publisherClientID topicName other →
      other.topic ≠ option.topic →
      isBetterWinner (matchedSubscriptionFromOption option)
        (some (matchedSubscriptionFromOption other)) = true

theorem wins_of_argmin {center : MemorySubCenter} {clientID publisherClientID : ClientID}
    {topicName : String} (ha : ShardsAgree center.shards) (hn : topicName ≠ "")
    (hp : hasWildcard topicName = false) {best : MatchedSubscription}
    (hl : (retainedMatchesForClient center clientID publisherClientID topicName).argmin rank =
      some best) :
    ∃ option, Wins center clientID publisherClientID topicName option ∧
      best = matchedSubscriptionFromOption option := by
  have hm {subscription : MatchedSubscription} :=
    @mem_retainedMatches_iff _ clientID publisherClientID _ ha hn hp subscription
  obtain ⟨option, hr, rfl⟩ := hm.mp (argmin_mem hl)
  refine ⟨option, ⟨hr, fun other meets' hne => isBetterWinner_iff.mpr ?_⟩, rfl⟩
  refine lt_of_le_of_ne (le_of_mem_argmin (hm.mpr ⟨other, meets', rfl⟩) hl) ?_
  exact fun he => hne (topicFilter_eq_of_rank_eq he).symm

theorem Wins.unique {center : MemorySubCenter} {clientID publisherClientID : ClientID}
    {topicName : String} (agree : ShardsAgree center.shards) {option other : SubOption}
    (wins : Wins center clientID publisherClientID topicName option)
    (otherWins : Wins center clientID publisherClientID topicName other) : option = other := by
  obtain ⟨core, found, member⟩ := wins.1.1.shard agree
  obtain ⟨otherCore, otherFound, otherMember⟩ := otherWins.1.1.shard agree
  have topic : option.topic = other.topic := by
    by_contra differs
    have better := isBetterWinner_iff.mp (wins.2 other otherWins.1 (Ne.symm differs))
    exact lt_asymm better (isBetterWinner_iff.mp (otherWins.2 option wins.1 differs))
  rw [topic, otherFound] at found
  cases found
  exact (core.topicsOf clientID).eq_of_key_eq member otherMember topic

/-! ## Flags of first sends and copies -/

/-- One subscription wins, and the flag is its Retain As Published option. -/
def FirstSend.Flagged (clientID : ClientID) (sent : FirstSend) : Prop :=
  ∃ option, Wins sent.center clientID sent.message.publisherClientID sent.message.topic option ∧
    (∀ other, Wins sent.center clientID sent.message.publisherClientID sent.message.topic other →
      other = option) ∧
    sent.publish.retain = option.retainAsPublished

def FirstSend.IsCopy (sent : FirstSend) (copy : Publish) : Prop :=
  copy = { sent.publish with packetID := copy.packetID, qos := copy.qos, duplicate := true }

structure RetainedSession.Traced (clientID : ClientID) (s : RetainedSession) : Prop where
  flagged : ∀ sent ∈ s.firstSends, sent.Flagged clientID
  carried : s.session.Carries fun packet => ∃ sent ∈ s.firstSends, sent.publish = packet
  copied : ∀ copy ∈ s.copies, ∃ sent ∈ s.firstSends, sent.IsCopy copy

theorem InflightEntry.retainedPacket_eq_some {entry : InflightEntry} {copy : Publish}
    (sent : entry.retainedPacket = some copy) :
    ∃ packet ∈ entry.publishPacket,
      copy = { packet with packetID := copy.packetID, qos := copy.qos, duplicate := true } := by
  unfold InflightEntry.retainedPacket at sent
  split at sent
  · obtain ⟨packet, kept, rfl⟩ := map_eq_some_iff.mp sent
    exact ⟨packet, kept, rfl⟩
  · cases sent

theorem Outbound.Carries.copies {P : Publish → Prop} {s : Outbound} (carried : s.Carries P)
    {label : OutboundLabel} {copy : Publish} (member : copy ∈ s.retainedCopies label) :
    ∃ packet, P packet ∧
      copy = { packet with packetID := copy.packetID, qos := copy.qos, duplicate := true } := by
  unfold Outbound.retainedCopies at member
  split at member
  · split at member
    · rename_i last batch entry held current
      split at member
      · cases member
      · obtain ⟨packet, kept, same⟩ :=
          InflightEntry.retainedPacket_eq_some (mem_toList.mp member)
        exact ⟨packet, carried.pending _ entry held current rfl packet kept, same⟩
    · cases member
  · obtain ⟨transmission, sent, written⟩ := mem_filterMap.mp member
    cases transmission with
    | pubrel entry => cases written
    | publish entry =>
      obtain ⟨packet, kept, same⟩ := InflightEntry.retainedPacket_eq_some written
      obtain ⟨message, stored, source⟩ :=
        (Outbound.restoresFrom_restoring s _ _).sent entry sent packet kept
      exact ⟨packet, carried.saved message stored packet source, same⟩
  · cases member

namespace RetainedSession.Traced

variable {clientID : ClientID} {s next : RetainedSession} {message : RetainMessage}
  {packetID : PacketID} {publish : Publish}

theorem flagged_of_retainedPublish {validUTF8 : List UInt8 → Bool}
    {readAt now : Int} {subIDs : List Int} (named : message.topic ≠ "")
    (plain : hasWildcard message.topic = false)
    (built : retainedPublish validUTF8 s.center.toMemorySubCenter clientID message packetID
      readAt now = some (publish, subIDs)) :
    FirstSend.Flagged clientID ⟨s.center.toMemorySubCenter, message, publish⟩ := by
  obtain ⟨served, read⟩ : ∃ served, getRetainMessage message readAt now = some served := by
    cases read : getRetainMessage message readAt now with
    | some served => exact ⟨served, rfl⟩
    | none =>
      simp only [retainedPublish, sendRetainedForTopic, read, map_none] at built
      split at built <;> cases built
  obtain ⟨best, least, -, flag, -⟩ := retainedPublish_eq_some read built
  obtain ⟨option, wins, rfl⟩ := wins_of_argmin s.center.agree named plain least
  refine ⟨option, wins, fun other otherWins => otherWins.unique s.center.agree wins, ?_⟩
  rw [flag, (served_of_getRetainMessage read).2, Bool.and_true]
  rfl

theorem record (traced : s.Traced clientID)
    (flagged : FirstSend.Flagged clientID ⟨s.center.toMemorySubCenter, message, publish⟩)
    (written : Bool) :
    (s.record message publish written).Traced clientID := by
  cases written with
  | false => exact traced
  | true =>
    refine ⟨?_, traced.carried.mono ?_, fun copy member => ?_⟩
    · intro sent member
      rcases mem_cons.mp member with rfl | old
      · exact flagged
      · exact traced.flagged sent old
    · rintro packet ⟨sent, member, same⟩
      exact ⟨sent, mem_cons_of_mem _ member, same⟩
    · obtain ⟨sent, first, same⟩ := traced.copied copy member
      exact ⟨sent, mem_cons_of_mem _ first, same⟩

theorem writeRetainedPublish (traced : s.Traced clientID) {ts : Nat} {messageID : UUID}
    {written : Bool}
    (flagged : FirstSend.Flagged clientID ⟨s.center.toMemorySubCenter, message, publish⟩)
    (sends : s.writeRetainedPublish message packetID ts messageID publish written = some next) :
    next.Traced clientID := by
  have recorded := traced.record flagged written
  unfold RetainedSession.writeRetainedPublish at sends
  split at sends
  · cases sends
    exact recorded
  · obtain ⟨session, moved, rfl⟩ := map_eq_some_iff.mp sends
    have same : (s.record message publish written).session = s.session := by cases written <;> rfl
    rw [← same] at moved
    refine ⟨recorded.flagged,
      recorded.carried.step (Outbound.moves_of_step moved) ?_, recorded.copied⟩
    rintro _ _ _ _ _ ⟨⟩
    exact ⟨⟨s.center.toMemorySubCenter, message, publish⟩, mem_cons_self, rfl⟩

theorem step {validUTF8 : List UInt8 → Bool} {label : RetainedLabel} (traced : s.Traced clientID)
    (taken : (retainedSession validUTF8 clientID).step s label = some next) :
    next.Traced clientID := by
  cases label with
  | center operation =>
    cases taken
    exact ⟨traced.flagged, traced.carried, traced.copied⟩
  | sendRetained message packetID readAt now ts messageID written =>
    obtain ⟨⟨-, named, plain⟩, sends⟩ := ite_none_right_eq_some.mp taken
    split at sends
    · cases sends
      exact traced
    · rename_i publish subIDs built
      exact traced.writeRetainedPublish (flagged_of_retainedPublish named plain built) sends
  | session label =>
    have stepped : ∃ session, outbound.step s.session label = some session ∧ next = { s with
          session := session, copies := s.session.retainedCopies label ++ s.copies } ∧
        ∀ packetID qos ts messageID packet,
          label ≠ .sendRetained packetID qos ts messageID packet true := by
      cases label with
      | sendRetained => cases taken
      | append | runner | peer | session =>
        obtain ⟨session, moved, same⟩ := map_eq_some_iff.mp taken
        exact ⟨session, moved, same.symm, by rintro _ _ _ _ _ ⟨⟩⟩
    obtain ⟨session, moved, rfl, other⟩ := stepped
    refine ⟨traced.flagged, traced.carried.step (Outbound.moves_of_step moved)
      fun _ _ _ _ _ same => absurd same (other _ _ _ _ _), fun copy member => ?_⟩
    rcases mem_append.mp member with new | old
    · obtain ⟨_, ⟨sent, first, rfl⟩, same⟩ := traced.carried.copies new
      exact ⟨sent, first, same⟩
    · exact traced.copied copy old

end RetainedSession.Traced

end SkyTree.Client
