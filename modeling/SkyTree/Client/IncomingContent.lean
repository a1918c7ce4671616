import SkyTree.Client.IncomingSteps

/-!
# The routed content is the answered content

The table of a connection and the saved messages of the session both follow what was
answered with PUBREC and not completed with PUBCOMP. The ten-minute limit of the table
is the one thing that separates them: an entry that is dropped there lives on in the
session.
-/

namespace SkyTree.Client.Uplink

open Foundation Delivery Session Mqtt List Option Function KeyedTable

/-- A PUBLISH that counts the waiting messages finds no entry older than ten minutes, a PUBLISH
under a waiting identifier repeats the waiting message, a PUBREL carries a success code and its
store calls succeed, and a connection that ends without a save keeps its session unless no
message waits in it or in the session. -/
def InTime (clientID : ClientID) (s : Uplink) : UplinkLabel → Prop
  | .publish packet answers =>
      ∀ connection, s.connection = some connection → answers.prepared = .accepted →
        (packet.qos = 1 ∨ packet.qos = 2 → repeatedPublish connection packet = none →
          answers.admitted = .accepted →
          ∀ waiting ∈ connection.qos2, s.clock ≤ waiting.lastSeen + defaultQoS2WaitingTTL) ∧
        (packet.qos = 2 → ∀ waiting ∈ connection.qos2, waiting.packetID = packet.packetID →
          content waiting.message.publish = content packet)
  | .pubrel _ reasonCode outcome => mqtt5ReasonCodeIsError reasonCode = false ∧
      outcome.retained = true ∧ outcome.routing.saved = true ∧
      (∀ plan ∈ outcome.routing.plans, outcome.routing.appends plan.clientID = true) ∧
      outcome.removed = true
  | .drop => ∀ connection, s.connection = some connection →
      0 < connection.sessionExpiryInterval ∨
        connection.qos2 = .empty ∧ ∀ message, ¬ s.sessions.Incoming clientID message
  | _ => True

/-- What a PUBREL routes and what a PUBLISH after a PUBCOMP is taken for. -/
def Delivers (s next : Uplink) : UplinkLabel → Prop
  | .pubrel packetID _ _ => ∀ packet, s.exchange packetID = some (packet, reasonSuccess) →
      ∃ routed, next.routes = routed :: s.routes ∧ content routed = packet
  | .publish packet _ => packet.qos = 2 → s.exchange packet.packetID = none →
      next.exchange packet.packetID = none ∨
        ∃ connection message, next.connection = some connection ∧
          connection.qos2.read packet.packetID = some message ∧ message.publish = packet ∧
          message.serial = s.accepted
  | _ => True

def answered (message : IncomingMessage) : Publish × Nat :=
  (content message.publish, message.ackReasonCode)

def savedAnswer (message : UnfinishedMessage) : Option (Publish × Nat) :=
  message.publishPacket.map fun packet => (content packet, message.ackReasonCode)

def Tables (table : QoS2ReceiveStore) (exchange : PacketID → Option (Publish × Nat)) : Prop :=
  ∀ packetID, (table.read packetID).map answered = exchange packetID

def Saves (clientID : ClientID) (sessions : Core)
    (exchange : PacketID → Option (Publish × Nat)) : Prop :=
  ∀ packetID value, exchange packetID = some value ↔
    ∃ message, sessions.Incoming clientID message ∧ message.packetID = packetID ∧
      savedAnswer message = some value

structure Faithful (clientID : ClientID) (s : Uplink) : Prop where
  attached : s.Attached clientID
  tables : ∀ connection, s.connection = some connection → Tables connection.qos2 s.exchange
  saves : (∀ connection, s.connection = some connection → 0 < connection.sessionExpiryInterval) →
    Saves clientID s.sessions s.exchange
  unique : ∀ message other, s.sessions.Incoming clientID message →
    s.sessions.Incoming clientID other → message.packetID = other.packetID → message = other
  success : ∀ packetID packet reasonCode, s.exchange packetID = some (packet, reasonCode) →
    mqtt5ReasonCodeIsError reasonCode = false

section Table

variable {tab : QoS2ReceiveStore} {now : Nat}

theorem cleanupExpired_eq_self (hy : ∀ wait ∈ tab, now ≤ wait.lastSeen + defaultQoS2WaitingTTL) :
    tab.cleanupExpired now = tab := by
  unfold QoS2ReceiveStore.cleanupExpired KeyedTable.filter
  have all : tab.entries.filter
      (fun wait => decide (now ≤ wait.lastSeen + defaultQoS2WaitingTTL)) = tab.entries :=
    filter_eq_self.mpr fun wait hs => decide_eq_true (hy wait hs)
  cases tab
  congr

variable {pid : PacketID}

variable {msg : IncomingMessage}

theorem store_of_absent (hy : ∀ wait ∈ tab, now ≤ wait.lastSeen + defaultQoS2WaitingTTL)
    (ha : tab.read msg.publish.packetID = none) :
    tab.store now msg = tab.put ⟨msg.publish.packetID, msg, now⟩ := by
  have hm : tab.get msg.publish.packetID = none := map_eq_none_iff.mp ha
  unfold QoS2ReceiveStore.store
  rw [cleanupExpired_eq_self hy]
  simp only [hm]

theorem read_put_self : QoS2ReceiveStore.read (tab.put ⟨pid, msg, now⟩) pid = some msg := by
  have hs := get_put_self (t := tab) (v := (⟨pid, msg, now⟩ : Waiting))
  unfold QoS2ReceiveStore.read
  rw [hs]
  rfl

theorem read_put_of_ne {other : PacketID} (hne : other ≠ pid) :
    QoS2ReceiveStore.read (tab.put ⟨pid, msg, now⟩) other = tab.read other := by
  unfold QoS2ReceiveStore.read
  rw [get_put_of_ne hne]

theorem Tables.erase {exch : PacketID → Option (Publish × Nat)}
    (ht : Tables tab exch) (pid : PacketID) :
    Tables (tab.erase pid) (Function.update exch pid none) := by
  intro o
  by_cases hh : o = pid
  · rw [hh, update_self]
    simp [QoS2ReceiveStore.read, get_erase_self]
  · rw [update_of_ne hh, ← ht o]
    simp [QoS2ReceiveStore.read, get_erase_of_ne hh]

theorem Tables.put {exch : PacketID → Option (Publish × Nat)}
    (ht : Tables tab exch) (msg : IncomingMessage) :
    Tables (tab.put ⟨msg.publish.packetID, msg, now⟩)
      (Function.update exch msg.publish.packetID (some (answered msg))) := by
  intro o
  by_cases hh : o = msg.publish.packetID
  · rw [hh, read_put_self, update_self]
    rfl
  · rw [read_put_of_ne hh, update_of_ne hh]
    exact ht o

theorem read_store_isSome (hy : ∀ wait ∈ tab, now ≤ wait.lastSeen + defaultQoS2WaitingTTL)
    (hw : (tab.read pid).isSome = true ∨ pid = msg.publish.packetID) :
    ((tab.store now msg).read pid).isSome = true := by
  unfold QoS2ReceiveStore.store
  rw [cleanupExpired_eq_self hy]
  dsimp only
  split
  · next current found =>
      have hp : (tab.get pid).isSome = true := by
        rcases hw with old | rfl
        · rwa [QoS2ReceiveStore.read, isSome_map] at old
        · rw [found]
          rfl
      obtain ⟨wait, hs⟩ := isSome_iff_exists.mp hp
      obtain ⟨hm, idEq⟩ := get_eq_some_iff.mp hs
      rw [QoS2ReceiveStore.read, isSome_map]
      by_contra hn
      rw [Bool.not_eq_true, isSome_eq_false_iff, isNone_iff_eq_none, get_eq_none_iff] at hn
      by_cases hh : wait.packetID = msg.publish.packetID
      · exact hn _ (mem_modify.mpr (.inr ⟨wait, hm, hh, rfl⟩)) idEq
      · exact hn wait (mem_modify.mpr (.inl ⟨hm, hh⟩)) idEq
  · by_cases hh : pid = msg.publish.packetID
    · rw [hh, read_put_self]
      rfl
    · rw [read_put_of_ne hh]
      exact hw.resolve_right hh

theorem read_foldl_isSome {msgs : List IncomingMessage} (hr : ∀ wait ∈ tab, wait.lastSeen = now)
    (hw : (tab.read pid).isSome = true ∨ ∃ msg ∈ msgs, pid = msg.publish.packetID) :
    (QoS2ReceiveStore.read (msgs.foldl (QoS2ReceiveStore.store now) tab) pid).isSome =
      true := by
  induction msgs generalizing tab with
  | nil =>
    rcases hw with old | ⟨_, none, -⟩
    · exact old
    · cases none
  | cons first rest ih =>
    have hy : ∀ wait ∈ tab, now ≤ wait.lastSeen + defaultQoS2WaitingTTL := by
      intro wait hs
      rw [hr wait hs]
      exact Nat.le_add_right _ _
    apply ih
    · intro wait hs
      unfold QoS2ReceiveStore.store at hs
      rw [cleanupExpired_eq_self hy] at hs
      dsimp only at hs
      split at hs
      · rcases mem_modify.mp hs with ⟨old, -⟩ | ⟨old, -, -, rfl⟩
        · exact hr wait old
        · rfl
      · rcases mem_put.mp hs with ⟨old, -⟩ | rfl
        · exact hr wait old
        · rfl
    · rcases hw with old | ⟨msg, hm, hh⟩
      · exact .inl (read_store_isSome hy (.inl old))
      · rcases mem_cons.mp hm with rfl | hl
        · exact .inl (read_store_isSome hy (.inr hh))
        · exact .inr ⟨msg, hl, hh⟩

end Table

variable {clientID : ClientID} {s next : Uplink} {conn : IncomingConnection}

section Connect

variable {freshID : PacketID → UUID} {serials : PacketID → Nat} {unf : UnfinishedMessage}

theorem restored_answer (hf : SavedForm unf) {msg : IncomingMessage}
    (hr : restoredIncoming freshID serials unf = some msg) :
    msg.publish.packetID = unf.packetID ∧ savedAnswer unf = some (answered msg) := by
  obtain ⟨-, -, -, reasonCode, pkt, hp, exact⟩ := restoredIncoming_eq_some hr
  obtain ⟨pub, too, pid, -⟩ := hf.packet
  rw [hp] at too
  cases too
  have he := exact (pid ▸ hf.packetID)
  refine ⟨he ▸ pid, ?_⟩
  rw [savedAnswer, hp, answered, he, reasonCode]
  rfl

theorem restoredIncoming_of_form (freshID : PacketID → UUID) (serials : PacketID → Nat)
    (hf : SavedForm unf) (hi : unf.isOutgoing = false) :
    ∃ msg, restoredIncoming freshID serials unf = some msg := by
  obtain ⟨pub, hp, pid, qos⟩ := hf.packet
  have hn : pub.packetID ≠ 0 := pid ▸ hf.packetID
  unfold restoredIncoming
  simp [hi, hf.state, hf.qos, hf.packetID, hp, hn, qos]

theorem restored_tables {exch : PacketID → Option (Publish × Nat)} {sessions : Core}
    (saves : Saves clientID sessions exch) {msgs : List UnfinishedMessage}
    (forms : ∀ msg, sessions.Incoming clientID msg → SavedForm msg)
    (hl : ∀ msg, msg ∈ msgs ∧ msg.isOutgoing = false ↔ sessions.Incoming clientID msg) (now : Nat) :
    Tables (restoreIncomingQoS2FromSession now freshID serials msgs) exch := by
  intro pid
  cases hf : (restoreIncomingQoS2FromSession now freshID serials msgs).read pid with
  | some msg =>
    obtain ⟨wait, hs, rfl⟩ := map_eq_some_iff.mp hf
    obtain ⟨hm, idEq⟩ := get_eq_some_iff.mp hs
    rcases QoS2ReceiveStore.mem_foldl_store hm with ⟨_, none, -⟩ | ⟨msg, hb, hh, he⟩
    · cases none
    · obtain ⟨unf, saved, hr⟩ := mem_filterMap.mp hb
      have hi := (hl unf).mp ⟨saved, (restoredIncoming_eq_some hr).1⟩
      obtain ⟨packetEq, ha⟩ := restored_answer (forms unf hi) hr
      have ho := (saves pid (answered msg)).mpr ⟨unf, hi, packetEq.symm.trans (hh.trans idEq), ha⟩
      rw [ho, ← he]
      rfl
  | none =>
    cases ho : exch pid with
    | none => rfl
    | some value =>
      obtain ⟨unf, hi, hh, -⟩ := (saves pid value).mp ho
      obtain ⟨saved, isIn⟩ := (hl unf).mpr hi
      have form := forms unf hi
      obtain ⟨msg, hr⟩ := restoredIncoming_of_form freshID serials form isIn
      have hb : msg ∈ msgs.filterMap (restoredIncoming freshID serials) :=
        mem_filterMap.mpr ⟨unf, saved, hr⟩
      have hp : ((restoreIncomingQoS2FromSession now freshID serials msgs).read
          pid).isSome = true := by
        apply read_foldl_isSome
        · exact nofun
        · exact .inr ⟨msg, hb, hh.symm.trans (restored_answer form hr).1.symm⟩
      rw [hf] at hp
      cases hp

theorem connect_faithful (hf : s.Faithful clientID) (ho : s.connection = none)
    {tok : OwnerToken} {ival receiveMaximum : Nat}
    (ht : s.connect clientID tok ival receiveMaximum freshID =
      some next) : next.Faithful clientID := by
  have ha := connect_attached hf.attached ht
  have saves := hf.saves (by simp [ho])
  obtain ⟨opened, resp, hd, rfl⟩ := connect_eq_some ht
  have hs (msg : UnfinishedMessage) := Core.openSessionForConnect_incoming msg hd
  have again : Saves clientID opened
      (if resp.oldSession.isSome then s.exchange else fun _ => none) := by
    intro pid value
    cases hk : resp.oldSession.isSome with
    | true =>
      rw [if_pos rfl, saves pid value]
      constructor
      · rintro ⟨msg, hi, hr⟩
        exact ⟨msg, (hs msg).2.2 hk hi, hr⟩
      · rintro ⟨msg, hi, hr⟩
        exact ⟨msg, ((hs msg).2.1 hi).1, hr⟩
    | false =>
      refine ⟨nofun, fun ⟨msg, hi, _⟩ => ?_⟩
      have hp := ((hs msg).2.1 hi).2
      rw [hk] at hp
      cases hp
  have forms (msg : UnfinishedMessage) (hi : opened.Incoming clientID msg) : SavedForm msg :=
    hf.attached.saved msg ((hs msg).2.1 hi).1
  constructor
  · exact ha
  · intro conn he
    cases he
    exact restored_tables again forms (fun msg => (hs msg).1) s.clock
  · exact fun _ => again
  · intro msg o hi inbound
    exact hf.unique msg o ((hs msg).2.1 hi).1 ((hs o).2.1 inbound).1
  · intro pid pkt code open_
    dsimp only at open_
    split at open_
    · exact hf.success pid pkt code open_
    · cases open_

end Connect

section Session

variable {exch : PacketID → Option (Publish × Nat)} {sessions : Core}

theorem saves_congr {after : Core}
    (he : ∀ msg, after.Incoming clientID msg ↔ sessions.Incoming clientID msg)
    (hs : Saves clientID sessions exch) : Saves clientID after exch := by
  intro pid value
  rw [hs pid value]
  constructor
  · rintro ⟨msg, hi, hr⟩
    exact ⟨msg, (he msg).mpr hi, hr⟩
  · rintro ⟨msg, hi, hr⟩
    exact ⟨msg, (he msg).mp hi, hr⟩

theorem disconnect_faithful (hf : s.Faithful clientID) (hc : s.connection = some conn) {ival : Nat}
    {outgoing : List UnfinishedMessage}
    (ht : s.disconnect clientID conn ival outgoing = some next) :
    next.Faithful clientID := by
  have ha := disconnect_attached hf.attached hc ht
  obtain ⟨interval, allOut, saved, hd, rfl⟩ := disconnect_eq_some ht
  have hs (msg : UnfinishedMessage) : saved.Incoming clientID msg ↔
      ival ≠ 0 ∧ s.sessions.Incoming clientID msg :=
    Core.saveOfflineState_incoming (hf.attached.owned conn hc) allOut hd
  constructor
  · exact ha
  · exact nofun
  · intro _
    dsimp only
    split
    · next ended =>
        intro pid value
        refine ⟨nofun, fun ⟨msg, hi, _⟩ => ?_⟩
        exact absurd ended ((hs msg).mp hi).1
    · next kept =>
        apply saves_congr (fun msg => ⟨fun hi => ((hs msg).mp hi).2,
          fun hi => (hs msg).mpr ⟨kept, hi⟩⟩)
        apply hf.saves
        intro active he
        rw [hc] at he
        cases he
        exact Nat.pos_of_ne_zero fun hz => kept (interval hz)
  · intro msg o hi inbound
    exact hf.unique msg o ((hs msg).mp hi).2 ((hs o).mp inbound).2
  · intro pid pkt code ho
    dsimp only at ho
    split_ifs at ho
    exact hf.success pid pkt code ho

theorem drop_faithful (faithful : s.Faithful clientID) (current : s.connection = some conn)
    (inTime : s.InTime clientID .drop) : Faithful clientID { s with connection := none } :=
  { faithful with
    attached := .of_offline rfl faithful.attached.saved
    tables _ offline := by cases offline
    saves _ := by
      rcases inTime conn current with lasting | ⟨noneWaits, noneSaved⟩
      · refine faithful.saves fun active same => ?_
        rw [current] at same
        cases same
        exact lasting
      · intro packetID value
        rw [← faithful.tables conn current packetID, noneWaits]
        refine ⟨nofun, fun ⟨message, saved, _⟩ => absurd saved (noneSaved message)⟩ }

theorem Faithful.reopen (faithful : s.Faithful clientID) (current : s.connection = some conn)
    (open_ : Bool) :
    Faithful clientID { s with connection := some { conn with open_ := open_ } } :=
  { faithful with
    attached := (quiet_table (.refl _) open_).attached faithful.attached current
    tables after same := by
      cases same
      exact faithful.tables conn current
    saves lasting := by
      apply faithful.saves
      intro active same
      rw [current] at same
      cases same
      exact lasting { conn with open_ := open_ } rfl }

theorem Saves.upsert {after : Core} (saves : Saves clientID sessions exch) {pid : PacketID}
    {new : UnfinishedMessage} {value : Publish × Nat} (newID : new.packetID = pid)
    (newValue : savedAnswer new = some value)
    (spec : ∀ other, after.Incoming clientID other ↔
      (sessions.Incoming clientID other ∧ other.packetID ≠ pid) ∨ other = new) :
    Saves clientID after (Function.update exch pid (some value)) := by
  intro asked answer
  by_cases hh : asked = pid
  · rw [hh, update_self]
    constructor
    · intro he
      exact ⟨new, (spec new).mpr (.inr rfl), newID, newValue.trans he⟩
    · rintro ⟨msg, hi, idEq, hs⟩
      rcases (spec msg).mp hi with ⟨-, hne⟩ | rfl
      · exact absurd idEq hne
      · rw [← newValue, hs]
  · rw [update_of_ne hh, saves asked answer]
    constructor
    · rintro ⟨msg, hi, idEq, hs⟩
      exact ⟨msg, (spec msg).mpr (.inl ⟨hi, idEq ▸ hh⟩), idEq, hs⟩
    · rintro ⟨msg, hi, idEq, hs⟩
      rcases (spec msg).mp hi with ⟨old, -⟩ | rfl
      · exact ⟨msg, old, idEq, hs⟩
      · exact absurd (idEq.symm.trans newID) hh

theorem Saves.remove {after : Core} (saves : Saves clientID sessions exch) {pid : PacketID}
    (spec : ∀ other, after.Incoming clientID other ↔
      sessions.Incoming clientID other ∧ other.packetID ≠ pid) :
    Saves clientID after (Function.update exch pid none) := by
  intro asked answer
  by_cases hh : asked = pid
  · rw [hh, update_self]
    refine ⟨nofun, fun ⟨msg, hi, idEq, _⟩ => ?_⟩
    exact absurd idEq ((spec msg).mp hi).2
  · rw [update_of_ne hh, saves asked answer]
    constructor
    · rintro ⟨msg, hi, idEq, hs⟩
      exact ⟨msg, (spec msg).mpr ⟨hi, idEq ▸ hh⟩, idEq, hs⟩
    · rintro ⟨msg, hi, idEq, hs⟩
      exact ⟨msg, ((spec msg).mp hi).1, idEq, hs⟩

theorem Untouched.faithful (hu : Untouched clientID s next) (hf : s.Faithful clientID)
    (ha : next.Attached clientID) : next.Faithful clientID := by
  obtain ⟨sessions, rfl, -, inIff⟩ := hu
  constructor
  · exact ha
  · exact hf.tables
  · exact fun hl => saves_congr inIff (hf.saves hl)
  · intro msg o hi inbound
    exact hf.unique msg o ((inIff msg).mp hi) ((inIff o).mp inbound)
  · exact hf.success

end Session

section Publish

theorem shouldPersist_of_pos (hn : clientID ≠ "") (hl : 0 < conn.sessionExpiryInterval) :
    shouldPersistIncomingQoS2 clientID conn = true := by
  simp [shouldPersistIncomingQoS2, hn, hl]

variable {pkt : Publish}

theorem Faithful.read_eq_none (honest : s.Faithful clientID)
    (hc : s.connection = some conn) (qos : pkt.qos = 2)
    (hn : pkt.packetID ≠ 0) (fresh : repeatedPublish conn pkt = none) :
    conn.qos2.read pkt.packetID = none := by
  cases hf : conn.qos2.read pkt.packetID with
  | none => rfl
  | some msg =>
    have tab := honest.tables conn hc pkt.packetID
    rw [hf] at tab
    have hs := honest.success pkt.packetID _ _ tab.symm
    simp [repeatedPublish, qos, hn, hf, hs] at fresh

theorem repeatedPublish_eq_some {reasonCode : Nat}
    (hr : repeatedPublish conn pkt = some reasonCode) :
    pkt.qos = 2 ∧ ∃ waiting ∈ conn.qos2, waiting.packetID = pkt.packetID ∧
      conn.qos2.read pkt.packetID = some waiting.message ∧
      waiting.message.ackReasonCode = reasonCode := by
  unfold repeatedPublish at hr
  obtain ⟨⟨qos, -⟩, hf⟩ := ite_none_right_eq_some.mp hr
  obtain ⟨msg, stored, ha⟩ := bind_eq_some_iff.mp hf
  obtain ⟨-, he⟩ := ite_none_left_eq_some.mp ha
  obtain ⟨waiting, hk, rfl⟩ := map_eq_some_iff.mp stored
  obtain ⟨hm, idEq⟩ := get_eq_some_iff.mp hk
  exact ⟨qos, waiting, hm, idEq, stored, Option.some.inj he⟩

theorem Faithful.answer_eq_self (honest : s.Faithful clientID)
    (hc : s.connection = some conn) {reasonCode : Nat}
    (hr : repeatedPublish conn pkt = some reasonCode)
    (conEq : ∀ waiting ∈ conn.qos2, waiting.packetID = pkt.packetID →
      content waiting.message.publish = content pkt) :
    s.answer pkt reasonCode = s := by
  obtain ⟨-, waiting, hm, idEq, hf, rfl⟩ := repeatedPublish_eq_some hr
  have tab := honest.tables conn hc pkt.packetID
  rw [hf, map_some, answered, conEq waiting hm idEq] at tab
  unfold answer
  rw [tab, update_eq_self]

variable {ans : PublishAnswers}

theorem accept_faithful (hf : s.Faithful clientID) (hc : s.connection = some conn)
    (hn : clientID ≠ "") (qos : pkt.qos = 2)
    (hy : ∀ waiting ∈ conn.qos2, s.clock ≤ waiting.lastSeen + defaultQoS2WaitingTTL)
    (ha : conn.qos2.read pkt.packetID = none) {sessions : Core}
    (stays : persistIncomingQoS2WaitingPubrel clientID s conn (s.newIncoming pkt ans)
      ans.persisted =
      some sessions) :
    (acceptPublish clientID s conn (s.newIncoming pkt ans) sessions).Faithful clientID := by
  have takes : Accepts clientID s
      (acceptPublish clientID s conn (s.newIncoming pkt ans) sessions) conn
      pkt ans :=
    ⟨qos, conn.qos2, sessions, .refl _, stays, rfl⟩
  obtain ⟨-, saved⟩ := persist_spec hf.attached hc stays
  have hs : conn.qos2.store s.clock (s.newIncoming pkt ans) =
      conn.qos2.put ⟨pkt.packetID, s.newIncoming pkt ans, s.clock⟩ :=
    store_of_absent hy ha
  constructor
  · exact takes.attached hf.attached hc
  · intro after he
    cases he
    simp only [hs]
    exact (hf.tables conn hc).put (s.newIncoming pkt ans)
  · intro hl
    have still := hl _ rfl
    have ival : 0 < conn.sessionExpiryInterval := still
    rw [if_pos (shouldPersist_of_pos hn ival)] at saved
    refine .upsert (hf.saves ?_) rfl rfl saved.2
    intro active he
    rw [hc] at he
    cases he
    exact ival
  · intro msg o hi inbound idEq
    cases hp : shouldPersistIncomingQoS2 clientID conn with
    | false =>
      rw [hp] at saved
      have he : sessions = s.sessions := saved
      subst he
      exact hf.unique msg o hi inbound idEq
    | true =>
      rw [if_pos hp] at saved
      rcases (saved.2 msg).mp hi with ⟨old, hne⟩ | rfl
      · rcases (saved.2 o).mp inbound with ⟨old', -⟩ | rfl
        · exact hf.unique msg o old old' idEq
        · exact absurd idEq hne
      · rcases (saved.2 o).mp inbound with ⟨-, hne⟩ | rfl
        · exact absurd idEq.symm hne
        · rfl
  · intro pid answer code ho
    by_cases hh : pid = pkt.packetID
    · rw [hh] at ho
      have hu : some (content pkt, (s.newIncoming pkt ans).ackReasonCode) =
          some (answer, code) := by
        simpa [acceptPublish, Uplink.answer, newIncoming] using ho
      rw [← (Prod.mk.inj (Option.some.inj hu)).2]
      unfold newIncoming
      dsimp only
      split <;> decide
    · apply hf.success pid answer code
      simpa [acceptPublish, Uplink.answer, newIncoming, update_of_ne hh] using ho

theorem accept_delivers
    (hy : ∀ waiting ∈ conn.qos2, s.clock ≤ waiting.lastSeen + defaultQoS2WaitingTTL)
    (ha : conn.qos2.read pkt.packetID = none) (sessions : Core) :
    Delivers s (acceptPublish clientID s conn (s.newIncoming pkt ans) sessions)
      (.publish pkt ans) := by
  have hs : conn.qos2.store s.clock (s.newIncoming pkt ans) =
      conn.qos2.put ⟨pkt.packetID, s.newIncoming pkt ans, s.clock⟩ :=
    store_of_absent hy ha
  intro _ _
  refine .inr ⟨_, s.newIncoming pkt ans, rfl, ?_, rfl, rfl⟩
  simp only [hs]
  exact read_put_self

theorem delivers_of_exchange_eq (he : next.exchange = s.exchange) :
    Delivers s next (.publish pkt ans) := by
  intro _ hc
  rw [he]
  exact .inl hc

theorem fail_erase_faithful (hf : s.Faithful clientID)
    (hc : s.connection = some conn) {msg : IncomingMessage}
    (hy : ∀ waiting ∈ conn.qos2, s.clock ≤ waiting.lastSeen + defaultQoS2WaitingTTL)
    (ha : conn.qos2.read msg.publish.packetID = none) :
    Faithful clientID (s.fail { conn with
      qos2 := (conn.qos2.store s.clock msg).erase msg.publish.packetID }) := by
  have hm : conn.qos2.get msg.publish.packetID = none := map_eq_none_iff.mp ha
  have he : (conn.qos2.store s.clock msg).erase msg.publish.packetID = conn.qos2 := by
    rw [store_of_absent hy ha]
    apply ext_entries
    exact (erase_put (t := conn.qos2)
      (v := ⟨msg.publish.packetID, msg, s.clock⟩)).trans (erase_eq_self hm)
  rw [he]
  exact hf.reopen hc false

theorem admitPublish_faithful (faithful : s.Faithful clientID)
    (current : s.connection = some conn) (named : clientID ≠ "")
    (numbered : pkt.qos ≠ 0 → pkt.packetID ≠ 0) (fresh : repeatedPublish conn pkt = none)
    (young : pkt.qos = 1 ∨ pkt.qos = 2 → ans.admitted = .accepted →
      ∀ waiting ∈ conn.qos2, s.clock ≤ waiting.lastSeen + defaultQoS2WaitingTTL) :
    (s.admitPublish clientID conn pkt ans).Faithful clientID ∧
      Delivers s (s.admitPublish clientID conn pkt ans) (.publish pkt ans) := by
  unfold admitPublish
  split
  · exact ⟨faithful.reopen current false, delivers_of_exchange_eq rfl⟩
  · exact ⟨faithful, delivers_of_exchange_eq rfl⟩
  next admitted =>
    split
    · exact ⟨faithful, delivers_of_exchange_eq rfl⟩
    · have young := young (by omega) admitted
      have counted : s.counted conn = conn := by
        unfold Uplink.counted
        rw [cleanupExpired_eq_self young]
      rw [counted]
      split_ifs with full qos
      · exact ⟨faithful.reopen current false, delivers_of_exchange_eq rfl⟩
      · have absent := faithful.read_eq_none current qos (numbered (by omega)) fresh
        unfold storeQoS2Publish
        dsimp only
        split
        · exact ⟨fail_erase_faithful faithful current young absent, delivers_of_exchange_eq rfl⟩
        · next sessions persisted =>
            exact ⟨accept_faithful faithful current named qos young absent persisted,
              accept_delivers young absent sessions⟩
      · exact ⟨faithful.reopen current conn.open_, delivers_of_exchange_eq rfl⟩

theorem handlePublish_faithful (faithful : s.Faithful clientID)
    (current : s.connection = some conn) (named : clientID ≠ "")
    (numbered : pkt.qos ≠ 0 → pkt.packetID ≠ 0)
    (inTime : s.InTime clientID (.publish pkt ans)) :
    (s.handlePublish clientID conn pkt ans).Faithful clientID ∧
      Delivers s (s.handlePublish clientID conn pkt ans) (.publish pkt ans) := by
  unfold handlePublish
  split
  · exact ⟨faithful.reopen current false, delivers_of_exchange_eq rfl⟩
  · exact ⟨faithful, delivers_of_exchange_eq rfl⟩
  next prepared =>
    obtain ⟨young, same⟩ := inTime conn current prepared
    split
    · next reasonCode repeated =>
        have qos := (repeatedPublish_eq_some repeated).1
        rw [faithful.answer_eq_self current repeated (same qos)]
        exact ⟨faithful, delivers_of_exchange_eq rfl⟩
    · next fresh =>
        exact admitPublish_faithful faithful current named numbered fresh fun counts =>
          young counts fresh

end Publish

section Release

theorem finishPubRel_faithful (hf : s.Faithful clientID)
    (hc : s.connection = some conn) (hn : clientID ≠ "") (pid : PacketID) :
    (s.finishPubRel clientID conn pid true).Faithful clientID ∧
      (s.finishPubRel clientID conn pid true).routes = s.routes := by
  rcases finishPubRel_cases clientID s conn pid true with
    ⟨-, failed⟩ | ⟨sessions, hr, he⟩
  · exact absurd failed remove_ne_none
  · rw [he]
    obtain ⟨hk, inIff⟩ := remove_spec hf.attached hc hr
    refine ⟨⟨?_, ?_, ?_, ?_, ?_⟩, rfl⟩
    · apply hf.attached.rewrite hc hk
      · intro o hi
        exact hf.attached.saved o ((inIff o).mp hi).1
      · intro after heq
        cases heq
        rfl
    · intro after heq
      cases heq
      exact (hf.tables conn hc).erase pid
    · intro hl
      have hs := hl _ rfl
      have ival : 0 < conn.sessionExpiryInterval := hs
      apply Saves.remove
      · apply hf.saves
        intro active heq
        rw [hc] at heq
        cases heq
        exact ival
      · intro o
        have cut := inIff o
        simp only [shouldPersist_of_pos hn ival, forall_const] at cut
        exact cut
    · intro msg o hi inbound
      exact hf.unique msg o ((inIff msg).mp hi).1 ((inIff o).mp inbound).1
    · intro o pkt code ho
      have hu : Function.update s.exchange pid none o = some (pkt, code) := ho
      by_cases hh : o = pid
      · rw [hh, update_self] at hu
        cases hu
      · rw [update_of_ne hh] at hu
        exact hf.success o pkt code hu

theorem handlePubRel_faithful (hf : s.Faithful clientID)
    (hc : s.connection = some conn) (hn : clientID ≠ "") {pid : PacketID}
    {code : Nat} {out : PubrelOutcome}
    (hit : s.InTime clientID (.pubrel pid code out)) :
    (s.handlePubRel clientID conn pid code out).Faithful clientID ∧
      Delivers s (s.handlePubRel clientID conn pid code out) (.pubrel pid code out) := by
  obtain ⟨ha, kept, hs, appends, hr⟩ := hit
  have tab := hf.tables conn hc pid
  unfold handlePubRel
  split
  · next missing =>
      rw [missing, map_none] at tab
      rw [tab, update_eq_self]
      refine ⟨hf, fun pkt ho => ?_⟩
      rw [← tab] at ho
      cases ho
  · next msg found =>
      rw [found, map_some] at tab
      have done := hf.success pid _ _ tab.symm
      rw [if_neg (by simp [ha, done]), if_neg (by simp [kept]), hr]
      split
      · next unmatched =>
          refine ⟨(finishPubRel_faithful hf hc hn pid).1, fun pkt ho => ?_⟩
          -- reason 0x10 is not the reason 0x00 of a routed exchange
          rw [← tab, answered, unmatched] at ho
          cases ho
      · obtain ⟨ds, added, -, routed, -⟩ := routePublish_eq msg out.routing s
        dsimp only
        rw [if_pos (routePublish_succeeds hs appends), routed]
        have hb : Faithful clientID { s with
              deliveries := ds
              added := added
              routes := msg.publish :: s.routes } :=
          ⟨⟨hf.attached.live, hf.attached.owned, hf.attached.saved⟩,
            hf.tables, hf.saves, hf.unique, hf.success⟩
        obtain ⟨after, routes'⟩ := finishPubRel_faithful hb hc hn pid
        refine ⟨after, fun pkt ho => ⟨msg.publish, routes', ?_⟩⟩
        rw [← tab] at ho
        exact (Prod.mk.inj (Option.some.inj ho)).1

end Release

theorem step_faithful {label : UplinkLabel} (hn : clientID ≠ "")
    (hf : s.Faithful clientID) (hit : s.InTime clientID label)
    (ht : (uplink clientID).step s label = some next) :
    next.Faithful clientID ∧ Delivers s next label := by
  have ha := step_attached hf.attached ht
  cases moves_of_step ht with
  | wait he | environment he =>
    subst he
    exact ⟨{ hf with attached := ha }, trivial⟩
  | connect ho open' => exact ⟨connect_faithful hf ho open', trivial⟩
  | disconnect hc closed => exact ⟨disconnect_faithful hf hc closed, trivial⟩
  | drop hc he =>
    subst he
    exact ⟨drop_faithful hf hc hit, trivial⟩
  | commitOutgoing hc hw =>
    have hu := commitOutgoing_untouched hf.attached hc hw
    exact ⟨hu.faithful hf ha, trivial⟩
  | removeOutgoing hc hw =>
    have hu := removeOutgoing_untouched hf.attached hc hw
    exact ⟨hu.faithful hf ha, trivial⟩
  | publish hc num he =>
    subst he
    exact handlePublish_faithful hf hc hn num hit
  | pubrel hc _ he =>
    subst he
    exact handlePubRel_faithful hf hc hn hit

theorem initial_faithful {sessions : Core} (gone : sessions.sessions clientID = none)
    (ds : DeliveryStore) : (initial sessions ds).Faithful clientID := by
  have hn (msg : UnfinishedMessage) : ¬ (initial sessions ds).sessions.Incoming clientID msg :=
    Core.not_incoming_of_none gone
  constructor
  · exact initial_attached gone ds
  · exact nofun
  · intro _ pid value
    refine ⟨nofun, fun ⟨msg, hi, _⟩ => ?_⟩
    exact absurd hi (hn msg)
  · exact fun msg _ hi => absurd hi (hn msg)
  · exact nofun

/-- In a run that stays in time a PUBREL routes the content that was answered, and a
PUBLISH under a completed identifier is a new message. -/
theorem routed_as_answered (named : clientID ≠ "") {sessions : Core}
    (noSession : sessions.sessions clientID = none) {deliveries : DeliveryStore}
    (reached : (uplink clientID).Reached (InTime clientID) (initial sessions deliveries) s)
    {label : UplinkLabel} (inTime : s.InTime clientID label)
    (taken : (uplink clientID).step s label = some next) : Delivers s next label := by
  have faithful := reached.invariant (initial_faithful noSession deliveries)
    fun _ _ _ faithful met taken => (step_faithful named faithful met taken).1
  exact (step_faithful named faithful inTime taken).2

/-- A denied PUBLISH after eleven minutes leaves the waiting message in the table. -/
theorem routed_as_answered_alice :
    ∃ s next, (uplink "alice").Reached (InTime "alice") (initial .empty fun _ => .empty) s ∧
      (uplink "alice").step s (aliceReleases true) = some next ∧
      s.exchange 1 = some (alicePacket [1], reasonSuccess) ∧
      Delivers s next (aliceReleases true) := by
  obtain ⟨s, next, run, taken, answer⟩ : ∃ s next,
      (uplink "alice").run (initial .empty fun _ => .empty)
        [aliceConnects, alicePublishes [1], .wait (660 * 1000000000),
          .publish { topic := "news", payload := [], qos := 1, packetID := 2 }
            { messageID := 8, admitted := .denied }] = some s ∧
      (uplink "alice").step s (aliceReleases true) = some next ∧
      s.exchange 1 = some (alicePacket [1], reasonSuccess) := ⟨_, _, rfl, rfl, rfl⟩
  have release : s.InTime "alice" (aliceReleases true) := ⟨rfl, rfl, rfl, fun _ _ => rfl, rfl⟩
  have reached : (uplink "alice").Reached (InTime "alice") (initial .empty fun _ => .empty) s := by
    refine System.reached_of_run run ⟨trivial, ?_, trivial, ?_, trivial⟩
    · rintro connection ⟨⟩ -
      exact ⟨fun _ _ _ waiting member => absurd member not_mem_nil,
        fun _ waiting member => absurd member not_mem_nil⟩
    · rintro connection ⟨⟩ -
      exact ⟨nofun, nofun⟩
  exact ⟨s, next, reached, taken, answer, routed_as_answered (by decide) rfl reached release taken⟩

/-- After eleven minutes a QoS 1 PUBLISH drops the waiting message: the PUBREL routes
nothing. The saved copy comes back with the next connection and takes the place of the
message that is published under the identifier then. -/
theorem answered_content_lost : let lapse : List UplinkLabel :=
      [aliceConnects, alicePublishes [1], .wait (660 * 1000000000),
        .publish { topic := "news", payload := [], qos := 1, packetID := 2 } { messageID := 8 }]
    (∃ s next, (uplink "alice").run (initial .empty fun _ => .empty) lapse = some s ∧
      (uplink "alice").step s (aliceReleases true) = some next ∧
      s.exchange 1 = some (alicePacket [1], reasonSuccess) ∧ next.routes = []) ∧
    ∃ s next, (uplink "alice").run (initial .empty fun _ => .empty)
        (lapse ++ [aliceReleases true, .disconnect 3600 [], aliceConnects, alicePublishes [2]]) =
          some s ∧
      (uplink "alice").step s (aliceReleases true) = some next ∧
      s.exchange 1 = some (alicePacket [2], reasonSuccess) ∧
      next.routes = [alicePacket [1]] :=
  ⟨⟨_, _, rfl, rfl, rfl, rfl⟩, _, _, rfl, rfl, rfl, rfl⟩

end SkyTree.Client.Uplink
