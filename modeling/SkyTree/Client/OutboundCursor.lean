import SkyTree.Client.OutboundSteps

/-!
# The delivery cursor and tasks that wait for an acknowledgement

The store deletes every task up to the persisted cursor, so a task that was sent and
not terminally acknowledged must stay ahead of it. Acknowledgements move the cursor
in table order and respect this. QoS 0 tasks and dropped tasks move it at once, and
a reconnect may leave a sent task out of the table; the condition names those steps.
-/

namespace SkyTree.Client

open Foundation Delivery Session Mqtt List KeyedTable InflightTable Downlink

/-- The part of an entry that decides about the cursor. -/
structure EntryView where
  packetID : PacketID
  retained : Bool
  acked : Bool
  position : Position
  messageID : UUID

def InflightEntry.view (entry : InflightEntry) : EntryView where
  packetID := entry.packetID
  retained := entry.retained
  acked := entry.acked
  position := entry.position
  messageID := entry.messageID

structure EntryView.Waits (view : EntryView) : Prop where
  task : view.retained = false
  waiting : view.acked = false

namespace InflightTable

def views (table : InflightTable) : List EntryView := table.entries.map InflightEntry.view

variable {tab : InflightTable} {view : EntryView}

theorem mem_views : view ∈ tab.views ↔ ∃ ent ∈ tab, ent.view = view := by
  simp [views, mem_def]

theorem views_eq_of_packetID_eq {v w : EntryView} (hv : v ∈ tab.views) (hw : w ∈ tab.views)
    (he : v.packetID = w.packetID) : v = w := by
  obtain ⟨a, storedA, rfl⟩ := mem_views.mp hv
  obtain ⟨b, storedB, rfl⟩ := mem_views.mp hw
  rw [tab.eq_of_key_eq storedA storedB he]

theorem views_modify (pid : PacketID) (f : InflightEntry → InflightEntry)
    (hk : ∀ ent, (f ent).packetID = ent.packetID)
    (viewEq : ∀ ent, (f ent).view = ent.view) :
    views (tab.modify pid f hk) = tab.views := by
  simp only [views, KeyedTable.modify, map_map]
  apply map_congr_left
  intro ent _
  simp only [Function.comp]
  split
  · exact viewEq ent
  · rfl

@[simp] theorem views_updateState (pid : PacketID) (state : InflightState) :
    (tab.updateState pid state).views = tab.views :=
  views_modify _ _ _ fun _ => rfl

@[simp] theorem views_setFlowTokenHeld (pid : PacketID) (held : Bool) :
    (tab.setFlowTokenHeld pid held).views = tab.views :=
  views_modify _ _ _ fun _ => rfl

theorem mem_views_put_of_absent {ent : InflightEntry} (ha : tab.get ent.packetID = none) :
    view ∈ views (tab.put ent) ↔ view ∈ tab.views ∨ view = ent.view := by
  rw [get_eq_none_iff] at ha
  rw [mem_views, mem_views]
  constructor
  · rintro ⟨stored, hm, rfl⟩
    rcases mem_put.mp hm with ⟨old, -⟩ | rfl
    · exact .inl ⟨stored, old, rfl⟩
    · exact .inr rfl
  · rintro (⟨stored, hm, rfl⟩ | rfl)
    · exact ⟨stored, mem_put.mpr (.inl ⟨hm, ha stored hm⟩), rfl⟩
    · exact ⟨ent, mem_put.mpr (.inr rfl), rfl⟩

theorem mem_views_erase {pid : PacketID} :
    view ∈ views (tab.erase pid) ↔ view ∈ tab.views ∧ view.packetID ≠ pid := by
  rw [mem_views, mem_views]
  constructor
  · rintro ⟨ent, hm, rfl⟩
    obtain ⟨hs, hne⟩ := mem_erase.mp hm
    exact ⟨⟨ent, hs, rfl⟩, hne⟩
  · rintro ⟨⟨ent, hs, rfl⟩, hne⟩
    exact ⟨ent, mem_erase.mpr ⟨hs, hne⟩, rfl⟩

theorem mem_views_setAcked {pid : PacketID} : view ∈ (tab.setAcked pid).views ↔
      (view ∈ tab.views ∧ view.packetID ≠ pid) ∨
        ∃ old ∈ tab.views, old.packetID = pid ∧ view = { old with acked := true } := by
  rw [mem_views]
  constructor
  · rintro ⟨ent, hm, rfl⟩
    rcases mem_modify.mp hm with ⟨hs, hne⟩ | ⟨old, hs, hit, rfl⟩
    · exact .inl ⟨mem_views.mpr ⟨ent, hs, rfl⟩, hne⟩
    · exact .inr ⟨old.view, mem_views.mpr ⟨old, hs, rfl⟩, hit, rfl⟩
  · rintro (⟨seen, hne⟩ | ⟨old, seen, hit, rfl⟩)
    · obtain ⟨ent, hs, rfl⟩ := mem_views.mp seen
      exact ⟨ent, mem_modify.mpr (.inl ⟨hs, hne⟩), rfl⟩
    · obtain ⟨ent, hs, rfl⟩ := mem_views.mp seen
      exact ⟨_, mem_modify.mpr (.inr ⟨ent, hs, hit, rfl⟩), rfl⟩

end InflightTable

namespace Outbound

def views (s : Outbound) : List EntryView := s.downlink.inflight.views

def SentIn (history : List Event) (position : Position) : Prop :=
  ∃ packetID qos, Event.published position packetID qos ∈ history

def AckedIn (history : List Event) (position : Position) : Prop := Event.acked position ∈ history

/-- Sent and not terminally acknowledged. -/
structure OutstandingIn (history : List Event) (position : Position) : Prop where
  sent : SentIn history position
  open_ : ¬ AckedIn history position

structure KeptIn (queue : ClientQueue) (position : Position) : Prop where
  ahead : ¬ queue.Passed position
  stored : ∃ task ∈ queue.tasks, task.position = position

abbrev Acked (s : Outbound) : Position → Prop := AckedIn s.history

abbrev Outstanding (s : Outbound) : Position → Prop := OutstandingIn s.history

abbrev Kept (s : Outbound) : Position → Prop := KeptIn s.downlink.queue

def WaitsAt (views : List EntryView) (position : Position) : Prop :=
  ∃ view ∈ views, view.Waits ∧ view.position = position

def AllBefore (views : List EntryView) (position : Position) : Prop :=
  ∀ view ∈ views, view.retained = false → view.position < position

/-- A task may be finished without acknowledgement: no other entry waits at or before it
and it is not itself outstanding. -/
structure Finishable (s : Outbound) (task : DeliveryTask) (own : Option PacketID) : Prop where
  first : ∀ view ∈ s.views, view.Waits → some view.packetID ≠ own → task.position < view.position
  fresh : ¬ s.Outstanding task.position

/-- The steps that keep the cursor behind outstanding tasks. -/
def CursorSafe (s : Outbound) : OutboundLabel → Prop
  | .runner (.advance _ _) => ∀ runner task rest,
      s.runner = some runner → runner.batch = task :: rest → s.Finishable task none
  | .runner (.oversized _) => ∀ runner task packetID,
      s.runner = some runner → runner.pending = some (.delivery task packetID) →
        s.Finishable task (some packetID)
  | .runner (.register _ _) => ∀ runner task rest,
      s.runner = some runner → runner.batch = task :: rest →
        task ∈ s.downlink.queue.tasks ∧ ¬ s.downlink.queue.Passed task.position
  | .runner .retransmitOversized => ∀ runner entry tokenAcquired,
      s.runner = some runner → runner.pending = some (.retransmission entry tokenAcquired) →
        ∀ view ∈ s.views, view.packetID = entry.packetID → ¬ view.Waits
  | .session (.connect environment capacity) => ∀ position, s.Outstanding position →
      let restored := (s.restoring environment capacity).inflight.views
      WaitsAt restored position ∨
        AllBefore restored position ∧
          loadClientDeliveryCursor s.downlink.queue
            (restoreQoS1ReplayCursorFromSession s.downlink.queue s.saved.replay) < position
  | _ => True

def replayStart : Option OutgoingReplayCursor → Position
  | none => beforeAllTasks
  | some replay => toLex ((replay.taskUnixMicro - 1) * 1000, UUID.nil)

def BatchReaches (batch : List DeliveryTask) (position : Position) : Prop :=
  (∃ task ∈ batch, task.position = position) ∨ ∀ task ∈ batch, task.position < position

structure ReadsLater (runner : Runner) (position : Position) : Prop where
  last : runner.last < position
  batch : BatchReaches runner.batch position
  pending : ∀ task packetID, runner.pending = some (.delivery task packetID) →
    task.position < position

def ReadLater (s : Outbound) (position : Position) : Prop :=
  match s.runner with
  | none => replayStart s.replay < position
  | some runner => ReadsLater runner position

/-- What holds while the first write of a task is open. -/
structure OpenDelivery (s : Outbound) (runner : Runner) (task : DeliveryTask)
    (packetID : PacketID) : Prop where
  after : runner.last < task.position
  rest : ∀ later ∈ runner.batch, task.position < later.position
  own : ∀ view ∈ s.views, view.packetID = packetID → view.retained = false →
    view.position = task.position
  entry : s.Acked task.position ∨ WaitsAt s.views task.position
  other : s.Outstanding task.position →
    (∃ view ∈ s.views, view.Waits ∧ view.position = task.position ∧ view.packetID ≠ packetID) ∨
      ∀ view ∈ s.views, view.retained = false → view.packetID ≠ packetID →
        view.position < task.position

structure CursorInvariant (s : Outbound) : Prop where
  kept : ∀ position, s.Outstanding position → s.Kept position
  recorded : ∀ view ∈ s.views, view.retained = false → view.acked = true →
    s.Acked view.position
  tabled : ∀ view ∈ s.views, view.Waits → s.Acked view.position ∨ s.Kept view.position
  placed : s.online = true → ∀ position, s.Outstanding position →
    WaitsAt s.views position ∨ AllBefore s.views position ∧ s.ReadLater position
  running : ∀ runner, s.runner = some runner → s.online = true
  ordered : ∀ runner, s.runner = some runner → Ordered runner
  delivery : ∀ runner task packetID, s.runner = some runner →
    runner.pending = some (.delivery task packetID) → s.OpenDelivery runner task packetID
  retransmission : ∀ runner entry tokenAcquired, s.runner = some runner →
    runner.pending = some (.retransmission entry tokenAcquired) →
      entry.retained = true ∨ s.Acked entry.position ∨ WaitsAt s.views entry.position
  distinct : (s.saved.unfinishedMessages.map UnfinishedMessage.packetID).Nodup

theorem BatchReaches.head {task : DeliveryTask} {rest : List DeliveryTask} {pos : Position}
    (hr : BatchReaches (task :: rest) pos)
    (hs : (task :: rest).Pairwise fun a b => a.position < b.position) :
    task.position = pos ∨ task.position < pos ∧ BatchReaches rest pos := by
  rcases hr with ⟨found, hm, hh⟩ | hb
  · rcases mem_cons.mp hm with rfl | later
    · exact .inl hh
    · refine .inr ⟨?_, .inl ⟨found, later, hh⟩⟩
      rw [← hh]
      exact (pairwise_cons.mp hs).1 found later
  · exact .inr ⟨hb task (by simp), .inr fun later hm => hb later (by simp [hm])⟩

section Acknowledge

variable {s : Outbound} {adv : Position → Bool} {pid : PacketID} {qos : Nat}
  {ent : InflightEntry} {pos : Position}

theorem acked_complete_of_acked (ha : s.Acked pos) : (s.complete adv pid qos).Acked pos :=
  mem_append_right _ ha

theorem acked_complete_of_hit (hit : s.downlink.inflight.ackTarget pid qos = some ent)
    (ht : ent.retained = false) :
    (s.complete adv pid qos).Acked ent.position := by
  apply mem_append_left
  rw [ackEvents_of_hit hit]
  simp [InflightEntry.event, ht]

theorem outstanding_of_complete (ho : (s.complete adv pid qos).Outstanding pos) :
    s.Outstanding pos := by
  obtain ⟨⟨usedID, usedQoS, hs⟩, unack⟩ := ho
  refine ⟨⟨usedID, usedQoS, ?_⟩, fun ha => unack (acked_complete_of_acked ha)⟩
  rcases mem_append.mp hs with added | old
  · cases ht : s.downlink.inflight.ackTarget pid qos with
    | none => simp [ackEvents, ht] at added
    | some ent =>
      rw [ackEvents_of_hit ht] at added
      cases entry_event_subset _ _ added
  · exact old

variable {view : EntryView}

section

variable (hit : s.downlink.inflight.ackTarget pid qos = some ent)

include hit

theorem views_complete (hs : view ∈ (s.complete adv pid qos).views) :
    (view ∈ s.views ∧ view.packetID ≠ pid) ∨
      ∃ old ∈ s.views, old.packetID = pid ∧ view = { old with acked := true } := by
  unfold views complete at hs
  rw [completeTerminal_inflight hit] at hs
  obtain ⟨stored, hm, rfl⟩ := mem_views.mp hs
  obtain ⟨marked, -⟩ := popAckedInOrder_rest.mp hm
  exact mem_views_setAcked.mp (mem_views.mpr ⟨stored, marked, rfl⟩)

theorem views_complete_of_waits (hs : view ∈ s.views) (hw : view.Waits)
    (hne : view.packetID ≠ pid) :
    view ∈ (s.complete adv pid qos).views := by
  unfold views complete
  rw [completeTerminal_inflight hit]
  obtain ⟨stored, hm, rfl⟩ := mem_views.mp (mem_views_setAcked.mpr (.inl ⟨hs, hne⟩))
  exact mem_views.mpr ⟨stored, popAckedInOrder_keeps hm hw.waiting, rfl⟩

theorem view_of_hit : ent.view ∈ s.views ∧ ent.packetID = pid := by
  obtain ⟨hs, he, -, -⟩ := ackTarget_eq_some_iff.mp hit
  exact ⟨mem_views.mpr ⟨ent, hs, rfl⟩, he⟩

theorem view_eq_of_hit (hs : view ∈ s.views) (he : view.packetID = pid) : view = ent.view := by
  obtain ⟨entrySeen, entryID⟩ := view_of_hit hit
  exact views_eq_of_packetID_eq hs entrySeen (he.trans entryID.symm)

end

variable {popped : InflightEntry}

theorem popped_origin (hm : popped ∈ (s.downlink.inflight.setAcked pid).popAckedInOrder.1) :
    (popped.view ∈ s.views ∧ popped.acked = true ∧ popped.packetID ≠ pid) ∨
      ∃ old ∈ s.views, old.packetID = pid ∧ popped.view = { old with acked := true } := by
  obtain ⟨hs, ha, -⟩ := popAckedInOrder_popped hm
  rcases mem_views_setAcked.mp (mem_views.mpr ⟨popped, hs, rfl⟩) with ⟨seen, hne⟩ | marked
  · exact .inl ⟨seen, ha, hne⟩
  · exact .inr marked

variable (hit : s.downlink.inflight.ackTarget pid qos = some ent)

include hit

theorem different_of_not_acked (hs : view ∈ s.views) (hw : view.Waits)
    (unack : ¬ (s.complete adv pid qos).Acked view.position) :
    view.packetID ≠ pid := by
  intro he
  obtain rfl := view_eq_of_hit hit hs he
  exact unack (acked_complete_of_hit hit hw.task)

theorem kept_complete (kept : s.Kept pos)
    (before : ∀ popped ∈ (s.downlink.inflight.setAcked pid).popAckedInOrder.1,
      popped.retained = false → popped.position < pos) : (s.complete adv pid qos).Kept pos := by
  obtain ⟨ahead, task, stored, rfl⟩ := kept
  unfold complete Kept
  dsimp only
  rw [completeTerminal_of_hit hit]
  refine ⟨fun passed => ?_, task, foldl_advanceOne_keeps _ _ stored before, rfl⟩
  rcases foldl_advanceOne_passed _ _ passed with behind | ⟨popped, member, ofTask, reached⟩
  · exact ahead behind
  · exact absurd (before popped member ofTask) (not_lt.mpr reached)

theorem waitsAt_complete (waits : WaitsAt s.views pos)
    (unack : ¬ (s.complete adv pid qos).Acked pos) :
    WaitsAt (s.complete adv pid qos).views pos := by
  obtain ⟨view, hs, hw, rfl⟩ := waits
  have hne := different_of_not_acked hit hs hw unack
  exact ⟨view, views_complete_of_waits hit hs hw hne, hw, rfl⟩

theorem allBefore_complete (hb : AllBefore s.views pos) :
    AllBefore (s.complete adv pid qos).views pos := by
  intro view hs ht
  rcases views_complete hit hs with ⟨old, -⟩ | ⟨old, seenOld, -, rfl⟩
  · exact hb view old ht
  · exact hb old seenOld ht

theorem acked_or_waitsAt_complete (hc : s.Acked pos ∨ WaitsAt s.views pos) :
    (s.complete adv pid qos).Acked pos ∨ WaitsAt (s.complete adv pid qos).views pos := by
  by_cases ha : (s.complete adv pid qos).Acked pos
  · exact .inl ha
  · rcases hc with hb | hw
    · exact .inl (acked_complete_of_acked hb)
    · exact .inr (waitsAt_complete hit hw ha)

theorem openDelivery_complete {runner : Runner} {task : DeliveryTask} {usedID : PacketID}
    (hd : s.OpenDelivery runner task usedID) :
    (s.complete adv pid qos).OpenDelivery runner task usedID := by
  refine ⟨hd.after, hd.rest, ?_, acked_or_waitsAt_complete hit hd.entry, ?_⟩
  · intro view hs he hh
    rcases views_complete hit hs with ⟨old, -⟩ | ⟨old, seenOld, -, rfl⟩
    · exact hd.own view old he hh
    · exact hd.own old seenOld he hh
  · intro ho
    rcases hd.other (outstanding_of_complete ho) with
      ⟨view, hs, hw, he, idNe⟩ | hb
    · have unack := ho.open_
      rw [← he] at unack
      have hne := different_of_not_acked hit hs hw unack
      exact .inl ⟨view, views_complete_of_waits hit hs hw hne, hw, he, idNe⟩
    · refine .inr ?_
      intro view hs hh idNe
      rcases views_complete hit hs with ⟨old, -⟩ | ⟨old, seenOld, -, rfl⟩
      · exact hb view old hh idNe
      · exact hb old seenOld hh idNe

variable (inv : s.CursorInvariant)

include inv

theorem popped_acked (hm : popped ∈ (s.downlink.inflight.setAcked pid).popAckedInOrder.1)
    (ht : popped.retained = false) :
    (s.complete adv pid qos).Acked popped.position := by
  rcases popped_origin hm with ⟨hs, ha, -⟩ | ⟨old, hs, he, marked⟩
  · exact acked_complete_of_acked (inv.recorded popped.view hs ht ha)
  · obtain rfl := view_eq_of_hit hit hs he
    have posEq : popped.position = ent.position := congrArg EntryView.position marked
    have keptEq : popped.retained = ent.retained := congrArg EntryView.retained marked
    rw [posEq]
    exact acked_complete_of_hit hit (keptEq.symm.trans ht)

theorem popped_before_open (hm : popped ∈ (s.downlink.inflight.setAcked pid).popAckedInOrder.1)
    (ht : popped.retained = false) (hs : view ∈ s.views) (hw : view.Waits)
    (unack : ¬ (s.complete adv pid qos).Acked view.position) :
    popped.position < view.position := by
  have hne := different_of_not_acked hit hs hw unack
  obtain ⟨stored, member, rfl⟩ := mem_views.mp (mem_views_setAcked.mpr (.inl ⟨hs, hne⟩))
  refine lt_of_le_of_ne ((popAckedInOrder_popped hm).2.2 stored member hw.waiting) fun he => ?_
  rw [← he] at unack
  exact unack (popped_acked hit inv hm ht)

/-- The acknowledged prefix ends before every outstanding task. -/
theorem popped_before_outstanding (ho : s.online = true)
    (hm : popped ∈ (s.downlink.inflight.setAcked pid).popAckedInOrder.1)
    (ht : popped.retained = false)
    (owed : (s.complete adv pid qos).Outstanding pos) :
    popped.position < pos := by
  rcases inv.placed ho pos (outstanding_of_complete owed) with
    ⟨view, hs, hw, rfl⟩ | ⟨hb, -⟩
  · exact popped_before_open hit inv hm ht hs hw owed.open_
  · rcases popped_origin hm with ⟨hs, -, -⟩ | ⟨old, hs, -, marked⟩
    · exact hb popped.view hs ht
    · have posEq : popped.position = old.position := congrArg EntryView.position marked
      have keptEq : popped.retained = old.retained := congrArg EntryView.retained marked
      rw [posEq]
      exact hb old hs (keptEq.symm.trans ht)

theorem complete_of_hit_invariant (online : s.online = true) :
    (s.complete adv pid qos).CursorInvariant :=
  { inv with
    kept pos outstanding := kept_complete hit (inv.kept pos (outstanding_of_complete outstanding))
        fun _ member task => popped_before_outstanding hit inv online member task outstanding
    recorded view seen task acked := by
      rcases views_complete hit seen with ⟨old, -⟩ | ⟨old, oldSeen, same, rfl⟩
      · exact acked_complete_of_acked (inv.recorded view old task acked)
      · obtain rfl := view_eq_of_hit hit oldSeen same
        exact acked_complete_of_hit hit task
    tabled view seen waits := by
      rcases views_complete hit seen with ⟨old, -⟩ | ⟨old, oldSeen, -, rfl⟩
      · by_cases acked : (s.complete adv pid qos).Acked view.position
        · exact .inl acked
        · rcases inv.tabled view old waits with before | kept
          · exact .inl (acked_complete_of_acked before)
          · exact .inr (kept_complete hit kept fun _ member task =>
              popped_before_open hit inv member task old waits acked)
      · cases waits.waiting
    placed _ pos outstanding := by
      rcases inv.placed online pos (outstanding_of_complete outstanding) with
        waiting | ⟨before, later⟩
      · exact .inl (waitsAt_complete hit waiting outstanding.open_)
      · exact .inr ⟨allBefore_complete hit before, later⟩
    delivery runner task usedID current pending :=
      openDelivery_complete hit (inv.delivery runner task usedID current pending)
    retransmission runner retried acq current pending := by
      rcases inv.retransmission runner retried acq current pending with
        isRetained | covered
      · exact .inl isRetained
      · exact .inr (acked_or_waitsAt_complete hit covered) }

end Acknowledge

section Frames

variable {s : Outbound}

theorem complete_invariant (inv : s.CursorInvariant) (ho : s.online = true)
    (adv : Position → Bool) (pid : PacketID) (qos : Nat) :
    (s.complete adv pid qos).CursorInvariant := by
  cases hit : s.downlink.inflight.ackTarget pid qos with
  | none =>
    rw [complete_of_miss hit]
    exact inv
  | some ent => exact complete_of_hit_invariant hit inv ho

/-- A new table that keeps the waiting entries and adds at most retained ones. -/
structure Retables (before after : List EntryView) : Prop where
  origin : ∀ view ∈ after, view ∈ before ∨ view.retained = true
  keeps : ∀ view ∈ before, view.Waits → view ∈ after

theorem Retables.of_eq {before after : List EntryView} (he : after = before) :
    Retables before after := by
  subst he
  exact ⟨fun _ hs => .inl hs, fun _ hs _ => hs⟩

theorem Retables.task {before after : List EntryView} (retables : Retables before after)
    {view : EntryView} (hs : view ∈ after) (ht : view.retained = false) : view ∈ before := by
  rcases retables.origin view hs with old | hr
  · exact old
  · rw [ht] at hr
    cases hr

theorem Retables.waitsAt {before after : List EntryView} (hr : Retables before after)
    {pos : Position} (waits : WaitsAt before pos) : WaitsAt after pos := by
  obtain ⟨view, hs, hw, he⟩ := waits
  exact ⟨view, hr.keeps view hs hw, hw, he⟩

theorem retable_invariant (inv : s.CursorInvariant) {tab : InflightTable}
    (retables : Retables s.views tab.views) (bkt : Bucket)
    (processed : List (String × UUID)) (live : Bool) (exchange : Exchange) :
    CursorInvariant { s with
      downlink := { inflight := tab, bucket := bkt, queue := s.downlink.queue,
                    processed := processed }
      live := live
      exchange := exchange } :=
  { inv with
    recorded view seen task acked := inv.recorded view (retables.task seen task) task acked
    tabled view seen waits := inv.tabled view (retables.task seen waits.task) waits
    placed online pos outstanding := by
      rcases inv.placed online pos outstanding with waiting | ⟨before, later⟩
      · exact .inl (retables.waitsAt waiting)
      · exact .inr ⟨fun view seen task => before view (retables.task seen task) task, later⟩
    delivery runner task pid current pending := by
      have delivery := inv.delivery runner task pid current pending
      refine ⟨delivery.after, delivery.rest, ?_, ?_, ?_⟩
      · intro view seen same isTask
        exact delivery.own view (retables.task seen isTask) same isTask
      · exact delivery.entry.imp id retables.waitsAt
      · intro outstanding
        rcases delivery.other outstanding with ⟨view, seen, waits, same, distinctID⟩ | before
        · exact .inl ⟨view, retables.keeps view seen waits, waits, same, distinctID⟩
        · exact .inr fun view seen isTask distinctID =>
            before view (retables.task seen isTask) isTask distinctID
    retransmission runner ent acq current pending := by
      rcases inv.retransmission runner ent acq current pending with
        retained | acked | waiting
      · exact .inl retained
      · exact .inr (.inl acked)
      · exact .inr (.inr (retables.waitsAt waiting)) }

theorem withRunner_invariant (inv : s.CursorInvariant) (online : s.online = true)
    {runner : Runner} (ordered : Ordered runner)
    (later : ∀ pos, s.Outstanding pos → AllBefore s.views pos →
      s.ReadLater pos → ReadsLater runner pos)
    (noDelivery : ∀ task pid, runner.pending ≠ some (.delivery task pid))
    (retransmission : ∀ ent acq, runner.pending = some (.retransmission ent acq) →
        ent.retained = true ∨ s.Acked ent.position ∨ WaitsAt s.views ent.position) :
    CursorInvariant { s with runner := some runner } :=
  { inv with
    placed _ pos outstanding := by
      rcases inv.placed online pos outstanding with waiting | ⟨before, reads⟩
      · exact .inl waiting
      · exact .inr ⟨before, later pos outstanding before reads⟩
    running _ _ := online
    ordered cur same := by
      cases same
      exact ordered
    delivery cur task pid same pending := by
      cases same
      exact absurd pending (noDelivery task pid)
    retransmission cur ent acq same pending := by
      cases same
      exact retransmission ent acq pending }

def Covered (s : Outbound) (events : List Event) : Prop :=
  ∀ event ∈ events, (∃ position, event = .received position) ∨
    ∃ position packetID qos, event = .published position packetID qos ∧
      (s.Acked position ∨ WaitsAt s.views position)

theorem Covered.ackedIn_iff {events : List Event} (hc : s.Covered events)
    (pos : Position) : AckedIn (events ++ s.history) pos ↔ s.Acked pos := by
  constructor
  · intro ha
    rcases mem_append.mp ha with added | old
    · rcases hc _ added with ⟨_, he⟩ | ⟨_, _, _, he, -⟩ <;> cases he
    · exact old
  · exact mem_append_right _

theorem Covered.outstanding_cases {events : List Event} (hc : s.Covered events)
    {pos : Position} (ho : OutstandingIn (events ++ s.history) pos) :
    s.Outstanding pos ∨ WaitsAt s.views pos ∧ SentIn events pos := by
  obtain ⟨⟨pid, qos, hs⟩, unack⟩ := ho
  rw [hc.ackedIn_iff] at unack
  rcases mem_append.mp hs with added | old
  · rcases hc _ added with ⟨_, he⟩ | ⟨_, _, _, he, ha | hw⟩
    · cases he
    · cases he
      exact absurd ha unack
    · cases he
      exact .inr ⟨hw, pid, qos, added⟩
  · exact .inl ⟨⟨pid, qos, old⟩, unack⟩

theorem record_invariant (inv : s.CursorInvariant) (events : List Event)
    (hi : ∀ runner task pid, s.runner = some runner →
      runner.pending = some (.delivery task pid) → ¬ SentIn events task.position)
    (cover : s.Covered events) :
    CursorInvariant { s with history := events ++ s.history } := by
  constructor
  · intro pos owed
    rcases cover.outstanding_cases owed with old | ⟨⟨view, hs, hw, rfl⟩, -⟩
    · exact inv.kept pos old
    · rcases inv.tabled view hs hw with ha | hk
      · exact absurd ((cover.ackedIn_iff _).mpr ha) owed.open_
      · exact hk
  · intro view hs task ha
    exact (cover.ackedIn_iff _).mpr (inv.recorded view hs task ha)
  · intro view hs hw
    exact (inv.tabled view hs hw).imp (cover.ackedIn_iff _).mpr id
  · intro ho pos owed
    rcases cover.outstanding_cases owed with old | ⟨waits, -⟩
    · exact inv.placed ho pos old
    · exact .inl waits
  · exact inv.running
  · exact inv.ordered
  · intro runner task pid hc hp
    have hd := inv.delivery runner task pid hc hp
    refine ⟨hd.after, hd.rest, hd.own, hd.entry.imp (cover.ackedIn_iff _).mpr id, fun owed => ?_⟩
    rcases cover.outstanding_cases owed with old | ⟨-, sent⟩
    · exact hd.other old
    · exact absurd sent (hi runner task pid hc hp)
  · intro runner ent acq hc hp
    rcases inv.retransmission runner ent acq hc hp with
      hr | ha | waits
    · exact .inl hr
    · exact .inr (.inl ((cover.ackedIn_iff _).mpr ha))
    · exact .inr (.inr waits)
  · exact inv.distinct

end Frames

end Outbound

end SkyTree.Client
