import SkyTree.Client.OutboundSteps

/-!
# A QoS 2 task is sent in one exchange

After a reconnect a task can come back twice: through the saved unfinished messages and
through the queue. The invariant keeps the two apart: a task that the runner will still
read has no history and no entry in the table, and an entry that may still be published
has only been published under its own packet identifier.
-/

namespace SkyTree.Client

open Foundation Delivery Session Mqtt List KeyedTable

def Event.position : Event → Position
  | .published position _ _ => position
  | .received position => position
  | .acked position => position

def Pending.Publishes : Pending → Prop
  | .delivery _ _ => True
  | .retransmission entry _ => entry.state ≠ .waitingPubComp

def PeerLabel.packetID : PeerLabel → PacketID
  | .puback packetID _ => packetID
  | .pubrec packetID _ _ _ => packetID
  | .pubcomp packetID _ _ => packetID

structure InflightEntry.Open (entry : InflightEntry) : Prop where
  task : entry.retained = false
  qos : entry.qos = 2
  waiting : entry.acked = false
  state : entry.state ≠ .waitingPubComp

theorem InflightEntry.Open.of_descends {old new : InflightEntry} (falls : old.Descends new)
    (isUp : new.Open) : old.Open := by
  constructor
  · rw [← falls.retained]
    exact isUp.task
  · rw [← falls.qos]
    exact isUp.qos
  · exact falls.acked isUp.waiting
  · intro hd
    rcases falls.state with he | hf
    · exact isUp.state (he.trans hd)
    · exact isUp.state hf

structure Resends (message : UnfinishedMessage) : Prop where
  qos : message.qos = 2
  task : message.publishPacket = none
  state : message.state ≠ .waitingPubComp

namespace Outbound

def Silent (history : List Event) (position : Position) : Prop :=
  ∀ event ∈ history, event.position ≠ position

def Publishable (history : List Event) (position : Position) (packetID : PacketID) : Prop :=
  ∀ event ∈ history, event.position = position →
    ∃ qos, event = .published position packetID qos

/-- A QoS 2 PUBLISH of a task comes after nothing but PUBLISH packets under its own
packet identifier. -/
def Allows (newer older : Event) : Prop :=
  ∀ position packetID, newer = .published position packetID 2 → older.position = position →
    ∃ qos, older = .published position packetID qos

def OnceOnly (history : List Event) : Prop := history.Pairwise Allows

def Coming (queue : ClientQueue) (runner : Runner) (task : DeliveryTask) : Prop :=
  task ∈ runner.batch ∨ task ∈ queue.tasks ∧ runner.last < task.position

def Writes (s : Outbound) (packetID : PacketID) : Prop :=
  ∃ runner pending, s.runner = some runner ∧ runner.pending = some pending ∧
    pending.Publishes ∧ pending.packetID = packetID

/-- The saved messages that would be published again still wait in the table. -/
def UpToDate (s : Outbound) (saved : SavedProgress) : Prop :=
  ∀ message ∈ saved.unfinishedMessages, Resends message →
    ∃ entry ∈ s.downlink.inflight, entry.Open ∧ entry.packetID = message.packetID ∧
      entry.messageID = message.messageID

/-- Task and message identifiers that the connection does not know. -/
structure New (s : Outbound) (task : DeliveryTask) : Prop where
  silent : Silent s.history task.position
  entries : ∀ entry ∈ s.downlink.inflight, entry.retained = false →
    entry.position ≠ task.position ∧ entry.messageID ≠ task.messageID
  batch : ∀ runner, s.runner = some runner → ∀ read ∈ runner.batch,
    read.messageID ≠ task.messageID
  pending : ∀ runner entry tokenAcquired, s.runner = some runner →
    runner.pending = some (.retransmission entry tokenAcquired) → entry.position ≠ task.position

/-- The steps that keep a task in one exchange. -/
def Exclusive (s : Outbound) : OutboundLabel → Prop
  | .append task => s.downlink.queue.deliveryTaskExists task.messageID = false → s.New task
  | .runner .start => ∀ task ∈ s.downlink.queue.tasks,
      alignDeliveryCursorBeforeRunner s.replay s.downlink.inflight
        (loadClientDeliveryCursor s.downlink.queue s.replay) < task.position →
      (deliveryQoS task.deliveryQoS = 2 → Silent s.history task.position) ∧
        ∀ entry ∈ s.downlink.inflight, entry.retained = false → entry.position ≠ task.position
  | .peer label => ¬ s.Writes label.packetID
  | .session (.connect _ _) => s.online = true → s.UpToDate s.saved
  | .session (.disconnect save) => s.UpToDate (s.leaves save)
  | _ => True

structure OpenWrite (history : List Event) (table : InflightTable) (runner : Runner)
    (task : DeliveryTask) (packetID : PacketID) : Prop where
  after : runner.last < task.position
  rest : ∀ later ∈ runner.batch, task.position < later.position
  silent : deliveryQoS task.deliveryQoS = 2 → Silent history task.position
  own : ∀ entry ∈ table, entry.retained = false → entry.position = task.position →
    entry.packetID = packetID

structure OpenResend (history : List Event) (table : InflightTable) (queue : ClientQueue)
    (runner : Runner) (sent : InflightEntry) : Prop where
  publishable : sent.qos = 2 → sent.state ≠ .waitingPubComp →
    Publishable history sent.position sent.packetID
  own : ∀ entry ∈ table, entry.retained = false → entry.position = sent.position →
    entry.packetID = sent.packetID
  aside : ∀ task, Coming queue runner task → task.position ≠ sent.position

structure Reads (history : List Event) (table : InflightTable) (queue : ClientQueue)
    (runner : Runner) : Prop where
  ordered : Ordered runner
  silent : ∀ task, Coming queue runner task → deliveryQoS task.deliveryQoS = 2 →
    Silent history task.position
  absent : ∀ task, Coming queue runner task → ∀ entry ∈ table, entry.retained = false →
    entry.position = task.position →
      ∃ own, runner.pending = some (.delivery own entry.packetID) ∧ own.position = entry.position
  delivery : ∀ task packetID, runner.pending = some (.delivery task packetID) →
    OpenWrite history table runner task packetID
  retransmission : ∀ sent tokenAcquired,
    runner.pending = some (.retransmission sent tokenAcquired) → sent.retained = false →
      OpenResend history table queue runner sent

structure Tabled (history : List Event) (table : InflightTable) : Prop where
  open_ : ∀ entry ∈ table, entry.Open → Publishable history entry.position entry.packetID
  states : ∀ entry ∈ table, entry.qos = 2 → entry.state ≠ .waitingPubAck
  packets : ∀ entry ∈ table, entry.retained = true → entry.publishPacket.isSome = true
  apart : ∀ entry ∈ table, ∀ other ∈ table, entry.retained = false → other.retained = false →
    entry.position = other.position → entry.packetID = other.packetID

def Identified (table : InflightTable) (queue : ClientQueue) (runner : Option Runner)
    (messageID : UUID) (position : Position) : Prop :=
  (∃ task, (task ∈ queue.tasks ∨ ∃ current, runner = some current ∧ task ∈ current.batch) ∧
    task.messageID = messageID ∧ task.position = position) ∨
  ∃ entry ∈ table, entry.retained = false ∧ entry.messageID = messageID ∧
    entry.position = position

def Named (table : InflightTable) (queue : ClientQueue) (runner : Option Runner) : Prop :=
  ∀ messageID position other, Identified table queue runner messageID position →
    Identified table queue runner messageID other → position = other

structure SavedTasks (messages : List UnfinishedMessage) : Prop where
  distinct : (messages.map UnfinishedMessage.packetID).Nodup
  names : ∀ message ∈ messages, ∀ other ∈ messages, message.qos = 2 → other.qos = 2 →
    message.publishPacket = none → other.publishPacket = none →
    message.messageID = other.messageID → message = other
  states : ∀ message ∈ messages, message.qos = 2 → message.state ≠ .waitingPubAck

/-- What would be published again was published under the saved identifier only. -/
def SavedOpen (history : List Event) (queue : ClientQueue) (saved : SavedProgress) : Prop :=
  ∀ message ∈ saved.unfinishedMessages, Resends message → ∀ task ∈ queue.tasks,
    task.messageID = message.messageID → Publishable history task.position message.packetID

structure SingleExchange (s : Outbound) : Prop where
  once : OnceOnly s.history
  tabled : Tabled s.history s.downlink.inflight
  named : Named s.downlink.inflight s.downlink.queue s.runner
  reads : ∀ runner, s.runner = some runner →
    Reads s.history s.downlink.inflight s.downlink.queue runner
  running : s.online = false → s.runner = none
  savedTasks : SavedTasks s.saved.unfinishedMessages
  savedOpen : s.online = false → SavedOpen s.history s.downlink.queue s.saved

section History

variable {hist events : List Event} {pos : Position} {pid : PacketID}

theorem Silent.publishable (hs : Silent hist pos) (pid : PacketID) : Publishable hist pos pid :=
  fun event hm hh => absurd hh (hs event hm)

theorem Silent.append (hs : Silent hist pos) (he : ∀ event ∈ events, event.position ≠ pos) :
    Silent (events ++ hist) pos := by
  intro event hm
  rcases mem_append.mp hm with new | old
  · exact he event new
  · exact hs event old

theorem Publishable.append (hp : Publishable hist pos pid)
    (ha : ∀ event ∈ events, event.position = pos → ∃ qos, event = .published pos pid qos) :
    Publishable (events ++ hist) pos pid := by
  intro event hm
  rcases mem_append.mp hm with new | old
  · exact ha event new
  · exact hp event old

theorem onceOnly_append (ho : OnceOnly hist) (ha : ∀ event ∈ events, ∀ pos pid qos,
      event ≠ .published pos pid qos) : OnceOnly (events ++ hist) := by
  apply pairwise_append.mpr
  refine ⟨?_, ho, ?_⟩
  · apply pairwise_of_forall_mem_list
    intro newer hm _ _ pos pid he
    exact absurd he (ha newer hm pos pid 2)
  · intro newer hm _ _ pos pid he
    exact absurd he (ha newer hm pos pid 2)

end History

section Tables

variable {hist : List Event} {tab after : InflightTable}

theorem Tabled.narrow (ht : Tabled hist tab) (hn : tab.Narrows after) : Tabled hist after := by
  constructor
  · intro e hs isUp
    obtain ⟨old, hm, falls⟩ := hn e hs
    rw [falls.position, falls.packetID]
    exact ht.open_ old hm (.of_descends falls isUp)
  · intro e hs qos
    obtain ⟨old, hm, falls⟩ := hn e hs
    rcases falls.state with he | hd
    · rw [he]
      exact ht.states old hm (falls.qos.symm.trans qos)
    · rw [hd]
      decide
  · intro e hs hr
    obtain ⟨old, hm, falls⟩ := hn e hs
    rw [falls.publishPacket]
    exact ht.packets old hm (falls.retained.symm.trans hr)
  · intro e hs o put task rival he
    obtain ⟨old, hm, falls⟩ := hn e hs
    obtain ⟨otherOld, mem', falls'⟩ := hn o put
    rw [falls.packetID, falls'.packetID]
    apply ht.apart old hm otherOld mem'
    · exact falls.retained.symm.trans task
    · exact falls'.retained.symm.trans rival
    · rw [← falls.position, ← falls'.position, he]

theorem Tabled.put (ht : Tabled hist tab) {e : InflightEntry}
    (hs : e.qos = 2 → e.state ≠ .waitingPubAck)
    (hp : e.retained = true → e.publishPacket.isSome = true)
    (hv : e.retained = false → ∀ o ∈ tab, o.retained = false → o.position ≠ e.position)
    (canPub : e.Open → Publishable hist e.position e.packetID) :
    Tabled hist (tab.put e) := by
  constructor
  · intro stored hm isUp
    rcases mem_put.mp hm with ⟨old, -⟩ | rfl
    · exact ht.open_ stored old isUp
    · exact canPub isUp
  · intro stored hm
    rcases mem_put.mp hm with ⟨old, -⟩ | rfl
    · exact ht.states stored old
    · exact hs
  · intro stored hm
    rcases mem_put.mp hm with ⟨old, -⟩ | rfl
    · exact ht.packets stored old
    · exact hp
  · intro stored hm o mem' hit rival he
    rcases mem_put.mp hm with ⟨old, -⟩ | rfl
    · rcases mem_put.mp mem' with ⟨old', -⟩ | rfl
      · exact ht.apart stored old o old' hit rival he
      · exact absurd he (hv rival stored old hit)
    · rcases mem_put.mp mem' with ⟨old', -⟩ | rfl
      · exact absurd he.symm (hv hit o old' rival)
      · rfl

theorem Tabled.record (tabled : Tabled hist tab) (events : List Event)
    (allowed : ∀ e ∈ tab, e.Open → ∀ event ∈ events, event.position = e.position →
        ∃ qos, event = .published e.position e.packetID qos) :
    Tabled (events ++ hist) tab :=
  { tabled with
    open_ e stored isOpen := (tabled.open_ e stored isOpen).append (allowed e stored isOpen) }

end Tables

section Reading

variable {hist : List Event} {tab after : InflightTable}
  {que shorter : ClientQueue} {rnr : Runner} {task : DeliveryTask}

theorem Coming.mono (less : Shrinks que shorter) (hc : Coming shorter rnr task) :
    Coming que rnr task :=
  hc.imp id fun ⟨hs, ha⟩ => ⟨less task hs, ha⟩

theorem Reads.narrow (hr : Reads hist tab que rnr) (hn : tab.NarrowsTasks after)
    (less : Shrinks que shorter) : Reads hist after shorter rnr := by
  have own {pos : Position} {pid : PacketID}
      (hb : ∀ e ∈ tab, e.retained = false → e.position = pos → e.packetID = pid) :
      ∀ e ∈ after, e.retained = false → e.position = pos → e.packetID = pid := by
    intro e hs hit hh
    obtain ⟨old, hm, hd⟩ := hn e hs hit
    rw [hd.packetID]
    exact hb old hm (hd.retained.symm.trans hit) (hd.position.symm.trans hh)
  constructor
  · exact hr.ordered
  · intro task hc
    exact hr.silent task (hc.mono less)
  · intro task hc e hs hit hh
    obtain ⟨old, hm, hd⟩ := hn e hs hit
    rw [hd.packetID, hd.position]
    apply hr.absent task (hc.mono less) old hm
    · exact hd.retained.symm.trans hit
    · exact hd.position.symm.trans hh
  · intro task pid hp
    have hw := hr.delivery task pid hp
    exact ⟨hw.after, hw.rest, hw.silent, own hw.own⟩
  · intro sent acq hp hit
    have resend := hr.retransmission sent acq hp hit
    exact ⟨resend.publishable, own resend.own, fun task hc => resend.aside task (hc.mono less)⟩

theorem Reads.record (hr : Reads hist tab que rnr) (events : List Event)
    (hc : ∀ task, Coming que rnr task → ∀ event ∈ events, event.position ≠ task.position)
    (hd : ∀ task pid, rnr.pending = some (.delivery task pid) →
      ∀ event ∈ events, event.position ≠ task.position)
    (resent : ∀ sent acq, rnr.pending = some (.retransmission sent acq) → sent.retained = false →
        sent.state ≠ .waitingPubComp → ∀ event ∈ events, event.position ≠ sent.position) :
    Reads (events ++ hist) tab que rnr := by
  constructor
  · exact hr.ordered
  · intro task ha qos
    exact (hr.silent task ha qos).append (hc task ha)
  · exact hr.absent
  · intro task pid hp
    have hw := hr.delivery task pid hp
    refine ⟨hw.after, hw.rest, fun qos => ?_, hw.own⟩
    exact (hw.silent qos).append (hd task pid hp)
  · intro sent acq hp hit
    have resend := hr.retransmission sent acq hp hit
    refine ⟨fun qos hs => ?_, resend.own, resend.aside⟩
    apply (resend.publishable qos hs).append
    intro event hm hh
    exact absurd hh (resent sent acq hp hit hs event hm)

theorem Reads.later (hr : Reads hist tab que rnr) {later : Runner}
    (ho : Ordered later) (hi : later.pending = none)
    (hc : ∀ task, Coming que later task → Coming que rnr task ∧
      ∀ own pid, rnr.pending = some (.delivery own pid) →
        own.position ≠ task.position) : Reads hist tab que later := by
  constructor
  · exact ho
  · intro task ha
    exact hr.silent task (hc task ha).1
  · intro task ha e hs hit hh
    obtain ⟨own, hp, he⟩ := hr.absent task (hc task ha).1 e hs hit hh
    exact absurd (he.trans hh) ((hc task ha).2 own _ hp)
  · simp [hi]
  · simp [hi]

theorem Reads.settle (hr : Reads hist tab que rnr) {sent : InflightEntry}
    {acq : Bool} (hp : rnr.pending = some (.retransmission sent acq)) :
    Reads hist tab que { rnr with pending := none } := by
  apply hr.later (hr.ordered.withPending none) rfl
  intro task hc
  refine ⟨hc, fun own pid hd => ?_⟩
  rw [hp] at hd
  cases hd

theorem Reads.afterDelivery (reads : Reads hist tab que rnr) {pid : PacketID}
    (hp : rnr.pending = some (.delivery task pid)) {batch : List DeliveryTask}
    (hw : batch.Sublist rnr.batch) :
    Reads hist tab que { last := task.position, batch := batch, pending := none } ∧
      ∀ later, Coming que { last := task.position, batch := batch, pending := none } later →
        later.position ≠ task.position := by
  have write := reads.delivery task pid hp
  have hb (later : DeliveryTask)
      (hc : Coming que { last := task.position, batch := batch, pending := none } later) :
      task.position < later.position := by
    rcases hc with hr | ⟨-, ha⟩
    · exact write.rest later (hw.subset hr)
    · exact ha
  refine ⟨reads.later ?_ rfl fun later hc => ⟨?_, ?_⟩, fun later hc => (hb later hc).ne'⟩
  · exact ⟨reads.ordered.sorted.sublist hw, fun later hr => write.rest later (hw.subset hr)⟩
  · rcases hc with hr | ⟨hs, ha⟩
    · exact .inl (hw.subset hr)
    · exact .inr ⟨hs, write.after.trans ha⟩
  · intro own ownID he
    rw [hp] at he
    cases he
    exact (hb later hc).ne

theorem Reads.afterFailure (hr : Reads hist tab que rnr) {pid : PacketID}
    (hp : rnr.pending = some (.delivery task pid)) (hn : tab.Narrows after)
    (hg : ∀ e ∈ after, e.packetID ≠ pid) :
    Reads hist after que { last := rnr.last, batch := [], pending := none } := by
  have still := hr.narrow hn.tasks (.refl que)
  have hc (later : DeliveryTask)
      (ha : Coming que { last := rnr.last, batch := [], pending := none } later) :
      Coming que rnr later :=
    ha.imp (fun none => nomatch none) id
  constructor
  · exact ordered_of_batch_nil _ _
  · intro later ha
    exact hr.silent later (hc later ha)
  · intro later ha e hs hit hh
    obtain ⟨own, he, -⟩ := still.absent later (hc later ha) e hs hit hh
    rw [hp] at he
    cases he
    exact absurd rfl (hg e hs)
  · exact fun _ _ none => nomatch none
  · exact fun _ _ none => nomatch none

theorem Reads.afterHead (reads : Reads hist tab que rnr) (hi : rnr.pending = none)
    {rest batch : List DeliveryTask} (hh : rnr.batch = task :: rest)
    (hw : batch.Sublist rest) :
    Reads hist tab que { last := task.position, batch := batch, pending := none } := by
  have sorted := reads.ordered.sorted
  rw [hh] at sorted
  apply reads.later _ rfl
  · intro later hc
    refine ⟨?_, by simp [hi]⟩
    rcases hc with hr | ⟨hs, ha⟩
    · exact .inl (by simp [hh, hw.subset hr])
    · exact .inr ⟨hs, (reads.ordered.after task (by simp [hh])).trans ha⟩
  · exact ⟨(pairwise_cons.mp sorted).2.sublist hw,
      fun later hr => (pairwise_cons.mp sorted).1 later (hw.subset hr)⟩

end Reading

section Names

variable {tab after : InflightTable} {que shorter : ClientQueue} {rnr next : Option Runner}

theorem Named.mono (hn : Named tab que rnr) (hw : ∀ mid pos, Identified after shorter next mid pos →
      Identified tab que rnr mid pos) : Named after shorter next :=
  fun mid pos o first hs =>
    hn mid pos o (hw _ _ first) (hw _ _ hs)

theorem Named.narrow (hn : Named tab que rnr) (narrows : tab.NarrowsTasks after)
    (less : Shrinks que shorter)
    (hb : ∀ cur, next = some cur → ∀ task ∈ cur.batch,
      task ∈ que.tasks ∨ ∃ old, rnr = some old ∧ task ∈ old.batch) :
    Named after shorter next := by
  apply hn.mono
  rintro mid pos (⟨task, hk, he⟩ | ⟨e, hs, hit, he⟩)
  · refine .inl ⟨task, ?_, he⟩
    rcases hk with hs | ⟨cur, isNext, hr⟩
    · exact .inl (less task hs)
    · exact hb cur isNext task hr
  · obtain ⟨old, hm, hd⟩ := narrows e hs hit
    refine .inr ⟨old, hm, hd.retained.symm.trans hit, ?_⟩
    rw [← hd.messageID, ← hd.position]
    exact he

end Names

end Outbound

end SkyTree.Client
