import SkyTree.Client.OutboundCursor

/-!
# The cursor never passes an outstanding task

Each step of the outbound side keeps the cursor invariant when it meets `CursorSafe`.
A run of such steps therefore keeps every sent and unacknowledged task stored and
ahead of the persisted cursor.
-/

namespace SkyTree.Client

open Foundation Delivery Session Mqtt List InflightTable Downlink ClientQueue

namespace Outbound

section Runner

variable {s next : Outbound} {rnr : Runner}

theorem batchReaches_nil (pos : Position) : BatchReaches [] pos := .inr fun _ hm => nomatch hm

variable {pos : Position}

theorem readLater_iff (hc : s.runner = some rnr) : s.ReadLater pos ↔ ReadsLater rnr pos := by
  rw [ReadLater, hc]

theorem load_before (hk : s.Kept pos) (hl : replayStart s.replay < pos) :
    loadClientDeliveryCursor s.downlink.queue s.replay < pos := by
  unfold loadClientDeliveryCursor
  cases replay : s.replay with
  | some cursor => simpa [replayStart, replay] using hl
  | none =>
    cases cursor : s.downlink.queue.cursor with
    | none => simpa [replayStart, replay] using hl
    | some reached =>
      have ha := hk.ahead
      simp only [ClientQueue.Passed, cursor] at ha
      simpa using ha

theorem align_before {loaded : Position} (hb : AllBefore s.views pos)
    (loadedBefore : loaded < pos) (rep : Option OutgoingReplayCursor) :
    alignDeliveryCursorBeforeRunner rep s.downlink.inflight loaded < pos := by
  unfold alignDeliveryCursorBeforeRunner
  split
  · next ent last =>
      split
      · exact loadedBefore
      · next task =>
          obtain ⟨hs, -⟩ := lastTask_eq_some last
          have seen := mem_views.mpr ⟨ent, hs, rfl⟩
          exact hb ent.view seen (Bool.not_eq_true _ ▸ task)
  · exact loadedBefore

theorem startRunner_invariant (hi : s.CursorInvariant) (ho : s.online = true)
    (idle : s.runner = none) :
    CursorInvariant { s with
      runner := some
        { last := alignDeliveryCursorBeforeRunner s.replay s.downlink.inflight
            (loadClientDeliveryCursor s.downlink.queue s.replay) } } := by
  apply withRunner_invariant hi ho
  · exact ordered_of_batch_nil _ _
  · intro pos owed hb hl
    rw [ReadLater, idle] at hl
    have loaded := load_before (hi.kept pos owed) hl
    exact ⟨align_before hb loaded _, batchReaches_nil _, fun _ _ hp => nomatch hp⟩
  · intro _ _ hp
    cases hp
  · intro _ _ hp
    cases hp

theorem batchReaches_readTasks {que : ClientQueue} {last : Position}
    (hk : KeptIn que pos) (hl : last < pos) (limit : Nat) :
    BatchReaches (que.readTasks last limit) pos := by
  obtain ⟨task, hs, rfl⟩ := hk.stored
  by_cases hr : task ∈ que.readTasks last limit
  · exact .inl ⟨task, hr, rfl⟩
  · exact .inr fun o hm => OrderedLog.take_after_complete hs hl hr hm

theorem read_invariant (invariant : s.CursorInvariant) (current : s.runner = some rnr)
    (idle : rnr.pending = none) :
    CursorInvariant { s with
      runner := some { rnr with batch := s.downlink.queue.readTasks rnr.last 200 } } := by
  apply withRunner_invariant invariant (invariant.running rnr current)
  · exact ordered_readTasks _ _ _ _
  · intro pos outstanding _ later
    rw [readLater_iff current] at later
    exact ⟨later.last, batchReaches_readTasks (invariant.kept pos outstanding) later.last 200,
      later.pending⟩
  · simp [idle]
  · simp [idle]

theorem abandon_invariant (invariant : s.CursorInvariant) (current : s.runner = some rnr)
    (idle : rnr.pending = none) :
    CursorInvariant { s with runner := some { rnr with batch := [] } } := by
  apply withRunner_invariant invariant (invariant.running rnr current)
  · exact ordered_of_batch_nil _ _
  · intro pos _ _ later
    rw [readLater_iff current] at later
    exact ⟨later.last, batchReaches_nil _, later.pending⟩
  · simp [idle]
  · simp [idle]

def afterTask (task : DeliveryTask) (batch : List DeliveryTask) : Runner :=
  { last := task.position, batch := batch, pending := none }

/-- What the table and the runner leave behind when a task is finished without an
acknowledgement. -/
structure Finishes (s : Outbound) (task : DeliveryTask) (table : InflightTable)
    (batch : List DeliveryTask) : Prop where
  fresh : ¬ s.Outstanding task.position
  origin : ∀ view ∈ table.views, view ∈ s.views
  keeps : ∀ view ∈ s.views, view.Waits → view.position ≠ task.position → view ∈ table.views
  first : ∀ view ∈ table.views, view.Waits → task.position < view.position
  ordered : Ordered (afterTask task batch)
  behind : ∀ position, s.Outstanding position → AllBefore s.views position →
    s.ReadLater position → task.position < position ∧ BatchReaches batch position

theorem kept_advanceCursor {que : ClientQueue} {target : Position} (hk : KeptIn que pos)
    (ha : target < pos) :
    KeptIn (que.advanceCursor target).1 pos := by
  constructor
  · intro hp
    rcases passed_advanceCursor_iff.mp hp with old | hr
    · exact hk.ahead old
    · exact absurd ha (not_lt_of_ge hr)
  · obtain ⟨task, hs, rfl⟩ := hk.stored
    exact ⟨task, mem_advanceCursor_of_lt hs ha, rfl⟩

variable {down : Downlink} {task : DeliveryTask}

variable {tab : InflightTable} {batch : List DeliveryTask}

theorem Finishes.before_outstanding (hf : s.Finishes task tab batch)
    (hi : s.CursorInvariant) (ho : s.online = true)
    (owed : s.Outstanding pos) :
    task.position < pos ∧ (WaitsAt tab.views pos ∨
        AllBefore tab.views pos ∧ ReadsLater (afterTask task batch) pos) := by
  rcases hi.placed ho pos owed with
    ⟨view, hs, hw, rfl⟩ | ⟨hb, hl⟩
  · have hne : view.position ≠ task.position := by
      intro he
      rw [he] at owed
      exact hf.fresh owed
    have stays := hf.keeps view hs hw hne
    exact ⟨hf.first view stays hw, .inl ⟨view, stays, hw, rfl⟩⟩
  · obtain ⟨behind, hr⟩ := hf.behind pos owed hb hl
    refine ⟨behind, .inr ⟨?_, behind, hr, fun _ _ hp => nomatch hp⟩⟩
    intro view hs task
    exact hb view (hf.origin view hs) task

theorem finish_invariant (hf : s.Finishes task tab batch) (hi : s.CursorInvariant)
    (ho : s.online = true) (tableEq : down.inflight = tab)
    (queEq : down.queue = s.downlink.queue) (adv : Bool) :
    CursorInvariant { s with
      downlink := down.advanceTask task adv
      runner := some (afterTask task batch) } := by
  have viewsEq : (down.advanceTask task adv).inflight.views = tab.views := by
    rw [advanceTask_inflight, tableEq]
  have after {pos : Position} (hk : s.Kept pos) (ha : task.position < pos) :
      KeptIn (down.advanceTask task adv).queue pos := by
    cases adv with
    | false => exact queEq ▸ hk
    | true => exact kept_advanceCursor (queEq ▸ hk) ha
  constructor
  · intro pos owed
    have ha := (hf.before_outstanding hi ho owed).1
    exact after (hi.kept pos owed) ha
  · intro view hs hit acked
    rw [views, viewsEq] at hs
    exact hi.recorded view (hf.origin view hs) hit acked
  · intro view hs hw
    rw [views, viewsEq] at hs
    refine (hi.tabled view (hf.origin view hs) hw).imp id fun hk => ?_
    exact after hk (hf.first view hs hw)
  · intro _ pos owed
    rw [views, viewsEq]
    exact (hf.before_outstanding hi ho owed).2
  · exact fun _ _ => ho
  · intro cur he
    cases he
    exact hf.ordered
  · intro cur _ _ he hp
    cases he
    cases hp
  · intro cur _ _ he hp
    cases he
    cases hp
  · exact hi.distinct

variable {rest : List DeliveryTask}

theorem Finishes.dropBatch (hf : s.Finishes task tab batch) (keep : Bool) :
    s.Finishes task tab (if keep then batch else []) := by
  cases keep with
  | true => exact hf
  | false =>
    exact { hf with
      ordered := ordered_of_batch_nil _ _
      behind := fun pos ho hb hl =>
        ⟨(hf.behind pos ho hb hl).1, batchReaches_nil pos⟩ }

theorem advance_invariant (invariant : s.CursorInvariant) (current : s.runner = some rnr)
    (idle : rnr.pending = none) (head : rnr.batch = task :: rest)
    (finishable : s.Finishable task none) (advances : Bool) :
    (s.advanceHead rnr task rest advances).CursorInvariant := by
  have ordered := invariant.ordered rnr current
  have sorted := ordered.sorted
  rw [head] at sorted
  have finishes : s.Finishes task s.downlink.inflight rest := {
    fresh := finishable.fresh
    origin := fun _ seen => seen
    keeps := fun _ seen _ _ => seen
    first := fun view seen waits => finishable.first view seen waits nofun
    ordered := ⟨(pairwise_cons.mp sorted).2, (pairwise_cons.mp sorted).1⟩
    behind := by
      intro pos outstanding _ later
      rw [readLater_iff current] at later
      have reaches := later.batch
      rw [head] at reaches
      rcases reaches.head sorted with here | ahead
      · rw [← here] at outstanding
        exact absurd outstanding finishable.fresh
      · exact ahead }
  have online := invariant.running rnr current
  have finished := finish_invariant (finishes.dropBatch advances) invariant online rfl rfl advances
  simpa only [advanceHead, idle, afterTask] using finished

/-- The table with one more task entry under an unused identifier. -/
structure Registers (before after : List EntryView) (own : EntryView) : Prop where
  mem_iff : ∀ view, view ∈ after ↔ view ∈ before ∨ view = own
  unused : ∀ view ∈ before, view.packetID ≠ own.packetID
  waits : own.Waits

variable {ent : InflightEntry}

theorem registers_put (absent : tab.get ent.packetID = none) (waits : ent.view.Waits) :
    Registers tab.views (InflightTable.views (tab.put ent)) ent.view where
  mem_iff _ := mem_views_put_of_absent absent
  unused view seen same := by
    obtain ⟨stored, member, rfl⟩ := mem_views.mp seen
    exact KeyedTable.get_eq_none_iff.mp absent stored member same
  waits := waits

variable {own : EntryView}

theorem Registers.waitsAt {before after : List EntryView} (hr : Registers before after own)
    (waits : WaitsAt before pos) : WaitsAt after pos := by
  obtain ⟨view, hs, hw, he⟩ := waits
  exact ⟨view, (hr.mem_iff view).mpr (.inl hs), hw, he⟩

theorem Registers.allBefore {before after : List EntryView} {own : EntryView}
    (hr : Registers before after own) {pos : Position}
    (ownBefore : own.position < pos) (allBefore : AllBefore before pos) :
    AllBefore after pos := by
  intro view hs task
  rcases (hr.mem_iff view).mp hs with old | rfl
  · exact allBefore view old task
  · exact ownBefore

theorem openDelivery_register (hi : s.CursorInvariant) (hc : s.runner = some rnr)
    (head : rnr.batch = task :: rest) {after : List EntryView}
    (hr : Registers s.views after own) (hh : own.position = task.position) {t : Outbound}
    (hs : t.views = after) (history : t.history = s.history) :
    t.OpenDelivery { rnr with batch := rest, pending := some (.delivery task own.packetID) }
      task own.packetID := by
  have online := hi.running rnr hc
  have ho := hi.ordered rnr hc
  have sorted := ho.sorted
  rw [head] at sorted
  subst hs
  constructor
  · exact ho.after task (by simp [head])
  · exact (pairwise_cons.mp sorted).1
  · intro view hm he _
    rcases (hr.mem_iff view).mp hm with old | rfl
    · exact absurd he (hr.unused view old)
    · exact hh
  · exact .inr ⟨own, (hr.mem_iff own).mpr (.inr rfl), hr.waits, hh⟩
  · intro owed
    rw [Outstanding, history] at owed
    rcases hi.placed online task.position owed with
      ⟨view, old, hw, he⟩ | ⟨hb, -⟩
    · exact .inl ⟨view, (hr.mem_iff view).mpr (.inl old), hw, he, hr.unused view old⟩
    · refine .inr fun view hm hit hne => ?_
      rcases (hr.mem_iff view).mp hm with old | rfl
      · exact hb view old hit
      · exact absurd rfl hne

theorem register_invariant (hi : s.CursorInvariant) (hc : s.runner = some rnr)
    (head : rnr.batch = task :: rest) (hk : s.Kept task.position)
    (enters : Registers s.views tab.views own) (hh : own.position = task.position)
    (bkt : Bucket) (exchange : Exchange) :
    CursorInvariant { s with
      downlink := { s.downlink with bucket := bkt, inflight := tab }
      runner := some { rnr with batch := rest, pending := some (.delivery task own.packetID) }
      exchange := exchange } := by
  have online := hi.running rnr hc
  have ho := hi.ordered rnr hc
  have sorted := ho.sorted
  rw [head] at sorted
  constructor
  · exact hi.kept
  · intro view hs hit acked
    rcases (enters.mem_iff view).mp hs with old | rfl
    · exact hi.recorded view old hit acked
    · rw [enters.waits.waiting] at acked
      cases acked
  · intro view hs hw
    rcases (enters.mem_iff view).mp hs with old | rfl
    · exact hi.tabled view old hw
    · rw [hh]
      exact .inr hk
  · intro _ pos owed
    rcases hi.placed online pos owed with waits | ⟨hb, later⟩
    · exact .inl (enters.waitsAt waits)
    · rw [readLater_iff hc] at later
      have hr := later.batch
      rw [head] at hr
      rcases hr.head sorted with he | ⟨ha, rest⟩
      · exact .inl ⟨own, (enters.mem_iff own).mpr (.inr rfl), enters.waits, hh.trans he⟩
      · refine .inr ⟨enters.allBefore (hh ▸ ha) hb, later.last, rest, ?_⟩
        intro open_ pid hp
        cases hp
        exact ha
  · exact fun _ _ => online
  · intro now he
    cases he
    exact ⟨(pairwise_cons.mp sorted).2, fun later hm => ho.after later (by simp [head, hm])⟩
  · intro now open_ pid he hp
    cases he
    cases hp
    exact openDelivery_register hi hc head enters hh rfl rfl
  · intro now _ _ he hp
    cases he
    cases hp
  · exact hi.distinct

variable {pid : PacketID}

theorem written_invariant (hi : s.CursorInvariant) (hc : s.runner = some rnr)
    (hp : rnr.pending = some (.delivery task pid)) (qos : Nat) :
    CursorInvariant { s with
      runner := some { rnr with last := task.position, pending := none }
      history := .published task.position pid qos :: s.history } := by
  have ho := hi.running rnr hc
  have hd := hi.delivery rnr task pid hc hp
  have moved : CursorInvariant { s with
      runner := some { rnr with last := task.position, pending := none } } := by
    apply withRunner_invariant hi ho
    · exact ⟨(hi.ordered rnr hc).sorted, hd.rest⟩
    · intro pos _ _ hl
      rw [readLater_iff hc] at hl
      exact ⟨hl.pending task pid hp, hl.batch, fun _ _ none => nomatch none⟩
    · simp
    · simp
  refine record_invariant moved [_] ?_ ?_
  · intro now _ _ he
    cases he
    simp
  · intro event hm
    exact .inr ⟨task.position, pid, qos, mem_singleton.mp hm, hd.entry⟩

theorem mem_views_releaseEntry {view : EntryView} : view ∈ (down.releaseEntry pid).inflight.views ↔
      view ∈ down.inflight.views ∧ view.packetID ≠ pid := by
  unfold Downlink.releaseEntry
  split
  · next absent =>
      refine ⟨fun seen => ⟨seen, fun he => ?_⟩, And.left⟩
      obtain ⟨ent, hs, rfl⟩ := mem_views.mp seen
      exact KeyedTable.get_eq_none_iff.mp absent ent hs he
  · exact mem_views_erase

theorem oversized_invariant (hi : s.CursorInvariant) (hc : s.runner = some rnr)
    (hp : rnr.pending = some (.delivery task pid))
    (canEnd : s.Finishable task (some pid)) (adv : Bool) :
    CursorInvariant (advanceHead { s with downlink := s.downlink.releaseEntry pid }
      { rnr with pending := none } task rnr.batch adv) := by
  have hd := hi.delivery rnr task pid hc hp
  have hf : s.Finishes task (s.downlink.releaseEntry pid).inflight rnr.batch := {
    fresh := canEnd.fresh
    origin := fun _ hs => (mem_views_releaseEntry.mp hs).1
    keeps := by
      intro view hs hw hne
      refine mem_views_releaseEntry.mpr ⟨hs, fun he => hne ?_⟩
      exact hd.own view hs he hw.task
    first := by
      intro view hs hw
      obtain ⟨old, hne⟩ := mem_views_releaseEntry.mp hs
      exact canEnd.first view old hw fun he => hne (Option.some.inj he)
    ordered := ⟨(hi.ordered rnr hc).sorted, hd.rest⟩
    behind := by
      intro pos _ _ hl
      rw [readLater_iff hc] at hl
      exact ⟨hl.pending task pid hp, hl.batch⟩ }
  exact finish_invariant (hf.dropBatch adv) hi (hi.running rnr hc) rfl releaseEntry_queue adv

theorem failed_invariant (hi : s.CursorInvariant) (hc : s.runner = some rnr)
    (hp : rnr.pending = some (.delivery task pid)) (live : Bool) :
    CursorInvariant { s with
      downlink := s.downlink.releaseEntry pid
      runner := some { rnr with batch := [], pending := none }
      live := live } := by
  have ho := hi.running rnr hc
  have hd := hi.delivery rnr task pid hc hp
  have after {pos : Position}
    (hk : s.Kept pos) : KeptIn (s.downlink.releaseEntry pid).queue pos := by
    rw [releaseEntry_queue]
    exact hk
  constructor
  · exact fun pos owed => after (hi.kept pos owed)
  · exact fun view hs => hi.recorded view (mem_views_releaseEntry.mp hs).1
  · intro view hs hw
    exact (hi.tabled view (mem_views_releaseEntry.mp hs).1 hw).imp id after
  · intro _ pos owed
    rcases hi.placed ho pos owed with
      ⟨view, hs, hw, rfl⟩ | ⟨hb, hl⟩
    · by_cases own : view.packetID = pid
      · have hh := hd.own view hs own hw.task
        rw [hh] at owed ⊢
        rcases hd.other owed with ⟨o, old, otherWaits, he, hne⟩ | hb
        · exact .inl ⟨o, mem_views_releaseEntry.mpr ⟨old, hne⟩, otherWaits, he⟩
        · refine .inr ⟨fun o hm hit => ?_, hd.after, batchReaches_nil _,
            fun _ _ none => nomatch none⟩
          obtain ⟨old, hne⟩ := mem_views_releaseEntry.mp hm
          exact hb o old hit hne
      · exact .inl ⟨view, mem_views_releaseEntry.mpr ⟨hs, own⟩, hw, rfl⟩
    · rw [readLater_iff hc] at hl
      exact .inr ⟨fun view hs => hb view (mem_views_releaseEntry.mp hs).1, hl.last,
        batchReaches_nil _, fun _ _ none => nomatch none⟩
  · exact fun _ _ => ho
  · intro now he
    cases he
    exact ordered_of_batch_nil _ _
  · intro now _ _ he none
    cases he
    cases none
  · intro now _ _ he none
    cases he
    cases none
  · exact hi.distinct

structure SameEntries (before after : Downlink) : Prop where
  views : after.inflight.views = before.inflight.views
  queue : after.queue = before.queue

variable {acq : Bool}

theorem acquireRetransmitToken_eq_some {acd : Downlink} {sent : InflightEntry}
    (ht : down.acquireRetransmitToken ent = some (acd, sent, acq)) :
    SameEntries down acd ∧ sent.view = ent.view := by
  unfold Downlink.acquireRetransmitToken at ht
  split at ht
  · cases ht
    exact ⟨⟨rfl, rfl⟩, rfl⟩
  · obtain ⟨bkt, -, he⟩ := Option.map_eq_some_iff.mp ht
    cases he
    exact ⟨⟨views_setFlowTokenHeld _ _, rfl⟩, rfl⟩

theorem sameEntries_undoRetransmission (down : Downlink) (ent : InflightEntry) (acq : Bool) :
    SameEntries down (down.undoRetransmission ent acq) := by
  unfold Downlink.undoRetransmission
  split
  · exact ⟨views_setFlowTokenHeld _ _, rfl⟩
  · exact ⟨rfl, rfl⟩

theorem sameEntries_invariant (hi : s.CursorInvariant)
    (he : SameEntries s.downlink down) (live : Bool) (exchange : Exchange) :
    CursorInvariant { s with downlink := down, live := live, exchange := exchange } := by
  obtain ⟨tab, bkt, que, processed⟩ := down
  obtain ⟨viewsEq, rfl⟩ := he
  exact retable_invariant hi (.of_eq viewsEq) bkt processed live exchange

theorem retransmit_invariant (hi : s.CursorInvariant) (hc : s.runner = some rnr)
    {sent : InflightEntry} (first : s.downlink.inflight.firstUnacked = some ent)
    (ht : s.downlink.acquireRetransmitToken ent = some (down, sent, acq)) :
    CursorInvariant { s with
      downlink := down
      runner := some { rnr with pending := some (.retransmission sent acq) } } := by
  obtain ⟨he, viewEq⟩ := acquireRetransmitToken_eq_some ht
  obtain ⟨hs, hw⟩ := firstUnacked_eq_some first
  have seen : ent.view ∈ s.views := mem_views.mpr ⟨ent, hs, rfl⟩
  have hm := sameEntries_invariant hi he s.live s.exchange
  apply withRunner_invariant hm (hi.running rnr hc)
  · exact (hi.ordered rnr hc).withPending _
  · intro pos _ _ hl
    obtain ⟨last, batch, -⟩ := (readLater_iff hc).mp hl
    exact ⟨last, batch, fun _ _ ho => nomatch ho⟩
  · simp
  · intro resent held same'
    cases same'
    cases hr : sent.retained with
    | true => exact .inl rfl
    | false =>
      refine .inr (.inr ⟨sent.view, ?_, ⟨hr, ?_⟩, rfl⟩)
      · rw [views, he.views, viewEq]
        exact seen
      · rw [viewEq]
        exact hw

theorem settle_invariant (hi : s.CursorInvariant) (hc : s.runner = some rnr) :
    CursorInvariant { s with runner := some { rnr with pending := none } } := by
  apply withRunner_invariant hi (hi.running rnr hc)
  · exact (hi.ordered rnr hc).withPending none
  · intro pos _ _ hl
    obtain ⟨last, batch, -⟩ := (readLater_iff hc).mp hl
    exact ⟨last, batch, fun _ _ ho => nomatch ho⟩
  · simp
  · simp

theorem republish_invariant (hi : s.CursorInvariant) (hc : s.runner = some rnr)
    (hp : rnr.pending = some (.retransmission ent acq)) :
    CursorInvariant { s with
      runner := some { rnr with pending := none }
      history := ent.publishedEvent ++ s.history } := by
  refine record_invariant (settle_invariant hi hc) _ ?_ ?_
  · intro now _ _ he
    cases he
    simp
  · intro event hm
    refine .inr ⟨ent.position, ent.packetID, ent.qos, entry_event_subset _ _ hm, ?_⟩
    rcases hi.retransmission rnr ent acq hc hp with
      hr | cover
    · simp [InflightEntry.publishedEvent, InflightEntry.event, hr] at hm
    · exact cover

theorem retables_discardRetransmission (acq : Bool)
    (hf : ∀ view ∈ s.views, view.packetID = ent.packetID → ¬ view.Waits) :
    Retables s.views (s.downlink.discardRetransmission ent acq).inflight.views ∧
      (s.downlink.discardRetransmission ent acq).queue = s.downlink.queue := by
  unfold Downlink.discardRetransmission
  split
  · refine ⟨⟨fun view hs => ?_, fun view hs hw => ?_⟩, rfl⟩
    · exact .inl (mem_views_erase.mp hs).1
    · exact mem_views_erase.mpr ⟨hs, fun he => hf view hs he hw⟩
  · split
    · exact ⟨.of_eq rfl, rfl⟩
    · exact ⟨.of_eq rfl, rfl⟩

theorem discard_invariant (hi : s.CursorInvariant) (hc : s.runner = some rnr) (acq : Bool)
    (hf : ∀ view ∈ s.views, view.packetID = ent.packetID → ¬ view.Waits) :
    CursorInvariant { s with
      downlink := s.downlink.discardRetransmission ent acq
      runner := some { rnr with pending := none } } := by
  obtain ⟨hr, queEq⟩ := retables_discardRetransmission acq hf
  have hd := retable_invariant (settle_invariant hi hc) hr
    (s.downlink.discardRetransmission ent acq).bucket
    (s.downlink.discardRetransmission ent acq).processed s.live s.exchange
  rw [← queEq] at hd
  exact hd

end Runner

section Peer

variable {s next : Outbound}

theorem receivePubRec_invariant (hi : s.CursorInvariant) {code : Nat}
    (hs : mqtt5ReasonCodeIsError code = false) (pid : PacketID)
    (adv : Position → Bool) (written : Bool) :
    (s.receivePubRec pid code adv written).CursorInvariant := by
  have he : SameEntries s.downlink (s.downlink.handlePubRec adv pid code).1 := by
    simp only [Downlink.handlePubRec, hs]
    cases s.downlink.pubrecTarget pid with
    | none => exact ⟨rfl, rfl⟩
    | some ent => exact ⟨views_updateState _ _, rfl⟩
  unfold receivePubRec
  split
  · exact sameEntries_invariant hi he _ _
  · next ent _ =>
      refine record_invariant (sameEntries_invariant hi he _ _) _ ?_ ?_
      · rintro _ _ _ _ _ ⟨_, _, sent⟩
        cases entry_event_subset _ _ sent
      · intro event hm
        exact .inl ⟨ent.position, entry_event_subset _ _ hm⟩

end Peer

section Session

variable {s next : Outbound} {que : ClientQueue}

theorem requeue_invariant (invariant : s.CursorInvariant)
    (keeps : ∀ pos, s.Kept pos → KeptIn que pos) :
    CursorInvariant { s with downlink := { s.downlink with queue := que } } :=
  { invariant with
    kept pos outstanding := keeps pos (invariant.kept pos outstanding)
    tabled view seen waits := (invariant.tabled view seen waits).imp id (keeps _)
    delivery rnr task pid current pending := by
      have delivery := invariant.delivery rnr task pid current pending
      exact { delivery with } }

theorem append_invariant (hi : s.CursorInvariant) {task : DeliveryTask}
    (hu : ∀ queued ∈ s.downlink.queue.tasks.entries, queued.position ≠ task.position) :
    CursorInvariant { s with
      downlink := { s.downlink with queue := (s.downlink.queue.appendTask task).1 } } := by
  apply requeue_invariant hi
  intro pos hk
  refine ⟨?_, ?_⟩
  · simpa only [ClientQueue.Passed, appendTask_cursor] using hk.ahead
  · obtain ⟨queued, hs, hh⟩ := hk.stored
    refine ⟨queued, ?_, hh⟩
    cases hp : s.downlink.queue.deliveryTaskExists task.messageID with
    | true =>
      rw [appendTask_of_present hp]
      exact hs
    | false =>
      rw [appendTask_tasks_of_absent hp]
      exact OrderedLog.mem_insert.mpr (.inr ⟨hs, hu queued hs⟩)

theorem sendRetained_invariant (hi : s.CursorInvariant) {ent : InflightEntry}
    (hr : ent.retained = true) {down : Downlink}
    (entered : s.downlink.registerEntry ent = some down) (exchange : Exchange) :
    CursorInvariant { s with downlink := down, exchange := exchange } := by
  obtain ⟨ha, bkt, -, rfl⟩ := registerEntry_eq_some entered
  refine retable_invariant hi ⟨fun view hs => ?_, fun view hs _ => ?_⟩ _ _ _ _
  · rcases (mem_views_put_of_absent ha).mp hs with old | rfl
    · exact .inl old
    · exact .inr hr
  · exact (mem_views_put_of_absent ha).mpr (.inl hs)

theorem replayStart_le_load (que : ClientQueue) (replay : Option OutgoingReplayCursor) :
    replayStart replay ≤ loadClientDeliveryCursor que replay := by
  cases replay with
  | none => exact beforeAllTasks_le _
  | some cursor => exact le_rfl

variable {env : RestoreEnvironment} {messages : List UnfinishedMessage}

theorem restored_kept {restoring : Restoring}
    (hr : RestoredFrom env que messages restoring) {view : EntryView}
    (seen : view ∈ restoring.inflight.views) :
    view.acked = false ∧ (view.retained = false → KeptIn que view.position) := by
  obtain ⟨ent, hs, rfl⟩ := mem_views.mp seen
  obtain ⟨msg, -, base, held, hb, rfl⟩ := hr.origin ent hs
  have built := rebuilt_of_restoredEntry hb
  refine ⟨built.waiting, fun task => ?_⟩
  obtain ⟨-, queued, hh, -, hf⟩ := built.task task
  obtain ⟨inQueue, ha, -⟩ := findDeliveryTaskByMessageID_eq_some hf
  have pos : queued.position = (InflightEntry.view { base with flowTokenHeld := held }).position :=
    hh.symm
  rw [← pos]
  exact ⟨ha, queued, inQueue, rfl⟩

theorem restored_events {restoring : Restoring}
    (hr : RestoredFrom env que messages restoring) {event : Event}
    (sent : event ∈ restoring.sent.flatMap Transmission.events) :
    ∃ pos pid qos, event = .published pos pid qos ∧ WaitsAt restoring.inflight.views pos := by
  obtain ⟨tr, hw, hm⟩ := mem_flatMap.mp sent
  obtain ⟨msg, -, base, hb, he, hs⟩ := hr.sent tr hw
  rw [he] at hm
  unfold restoredTransmission at hm
  split at hm
  · cases hm
  · have hp : event ∈ base.publishedEvent := hm
    refine ⟨base.position, base.packetID, base.qos, entry_event_subset _ _ hp, ?_⟩
    refine ⟨base.view, mem_views.mpr ⟨_, hs, rfl⟩, ⟨?_, ?_⟩, rfl⟩
    · cases kept : base.retained with
      | false => exact kept
      | true =>
        simp [InflightEntry.publishedEvent, InflightEntry.event, kept] at hp
    · exact (rebuilt_of_restoredEntry hb).waiting

theorem connect_invariant (hi : s.CursorInvariant) {capacity : Nat}
    (safe : s.CursorSafe (.session (.connect env capacity))) :
    (s.connect env capacity).CursorInvariant := by
  have hr : RestoredFrom env s.downlink.queue _ (s.restoring env capacity) :=
    restoreOutgoing_restoredFrom hi.distinct (.new capacity)
  have ht : CursorInvariant { s with
      downlink := { s.downlink with
        inflight := (s.restoring env capacity).inflight
        bucket := (s.restoring env capacity).bucket }
      online := true
      live := (s.restoring env capacity).live
      replay := restoreQoS1ReplayCursorFromSession s.downlink.queue s.saved.replay
      runner := none
      exchange := (s.restoring env capacity).sent.foldl Transmission.record s.savedExchange
      acksSinceCommit := 0 } := by
    constructor
    · exact hi.kept
    · intro view hs _ ha
      rw [(restored_kept hr hs).1] at ha
      cases ha
    · intro view hs hw
      exact .inr ((restored_kept hr hs).2 hw.task)
    · intro _ pos ho
      refine (safe pos ho).imp id fun ⟨hb, hl⟩ => ⟨hb, ?_⟩
      exact lt_of_le_of_lt (replayStart_le_load _ _) hl
    · exact fun _ hc => nomatch hc
    · exact fun _ hc => nomatch hc
    · exact fun _ _ _ hc => nomatch hc
    · exact fun _ _ _ hc => nomatch hc
    · exact hi.distinct
  refine record_invariant ht _ (fun _ _ _ hc => nomatch hc) ?_
  intro event sent
  obtain ⟨pos, pid, qos, he, waits⟩ := restored_events hr (mem_reverse.mp sent)
  exact .inr ⟨pos, pid, qos, he, .inr waits⟩

theorem resave_invariant (invariant : s.CursorInvariant) {saved : SavedProgress}
    (distinct : (saved.unfinishedMessages.map UnfinishedMessage.packetID).Nodup)
    (savedExchange : Exchange) (acks : Nat) :
    CursorInvariant { s with
      saved := saved, savedExchange := savedExchange, acksSinceCommit := acks } :=
  { invariant with
    delivery rnr task pid current pending := by
      have delivery := invariant.delivery rnr task pid current pending
      exact { delivery with }
    distinct := distinct }

theorem offline_invariant (hi : s.CursorInvariant) : CursorInvariant { s with
      downlink := { s.downlink with inflight := .empty }
      online := false
      live := false
      runner := none } := by
  constructor
  · exact hi.kept
  · intro view hs
    cases hs
  · intro view hs
    cases hs
  · intro ho
    cases ho
  · exact fun _ hc => nomatch hc
  · exact fun _ hc => nomatch hc
  · exact fun _ _ _ hc => nomatch hc
  · exact fun _ _ _ hc => nomatch hc
  · exact hi.distinct

end Session

theorem step_invariant {s next : Outbound} {label : OutboundLabel} (invariant : s.CursorInvariant)
    (safe : s.CursorSafe label) (taken : outbound.step s label = some next) :
    next.CursorInvariant := by
  cases moves_of_step taken <;> subst_vars
  case append unused => exact append_invariant invariant unused
  case sendRetained _ registered => exact sendRetained_invariant invariant rfl registered _
  case unsent => exact invariant
  case start online idle => exact startRunner_invariant invariant online idle
  case read current idle => exact read_invariant invariant current idle
  case abandon current idle =>
    exact retable_invariant (abandon_invariant invariant current idle) (.of_eq rfl) _ _ _ _
  case advance current idle head =>
    exact advance_invariant invariant current idle head (safe _ _ _ current head) _
  case register current _ head registered =>
    obtain ⟨absent, bucket, -, rfl⟩ := registerEntry_eq_some registered
    obtain ⟨stored, ahead⟩ := safe _ _ _ current head
    exact register_invariant invariant current head ⟨ahead, _, stored, rfl⟩
      (registers_put absent ⟨rfl, rfl⟩) rfl bucket _
  case written current pending => exact written_invariant invariant current pending _
  case oversized current pending =>
    exact oversized_invariant invariant current pending (safe _ _ _ current pending) _
  case failed current pending => exact failed_invariant invariant current pending _
  case retransmit current _ first acquired =>
    exact retransmit_invariant invariant current first acquired
  case released current _ _ =>
    exact sameEntries_invariant (settle_invariant invariant current) ⟨rfl, rfl⟩ _ _
  case republished current pending _ => exact republish_invariant invariant current pending
  case discarded current pending _ =>
    exact discard_invariant invariant current _ (safe _ _ _ current pending)
  case undone current _ =>
    exact sameEntries_invariant (settle_invariant invariant current)
      (sameEntries_undoRetransmission _ _ _) _ _
  case completed online _ _ => exact complete_invariant invariant online _ _ _
  case received _ _ success => exact receivePubRec_invariant invariant success _ _ _
  case connect => exact connect_invariant invariant safe
  case disconnect save _ =>
    cases save with
    | none => exact resave_invariant (offline_invariant invariant) invariant.distinct _ _
    | some now =>
      exact resave_invariant (offline_invariant invariant) (collected_distinct now _) _ _
  case commit => exact resave_invariant invariant (collected_distinct _ _) _ _
  case removeUnfinished =>
    exact resave_invariant invariant ((filter_sublist.map _).nodup invariant.distinct) _ _

theorem initial_invariant (que : ClientQueue) : (initial que).CursorInvariant := by
  constructor
  · rintro pos ⟨⟨_, _, sent⟩, -⟩
    cases sent
  · intro view seen
    cases seen
  · intro view seen
    cases seen
  · intro online
    cases online
  · exact fun _ current => nomatch current
  · exact fun _ current => nomatch current
  · exact fun _ _ _ current => nomatch current
  · exact fun _ _ _ current => nomatch current
  · exact nodup_nil

/-- A run of safe steps never lets the cursor reach a task that was sent and not
terminally acknowledged, and the store still holds that task. -/
theorem cursor_keeps_outstanding {queue : ClientQueue} {s : Outbound}
    (reached : outbound.Reached CursorSafe (initial queue) s) {position : Position}
    (outstanding : s.Outstanding position) : s.Kept position := by
  have hi := reached.invariant (initial_invariant queue)
    fun _ _ _ hi hs ht => step_invariant hi hs ht
  exact hi.kept position outstanding

/-- Two QoS 1 tasks are sent and the second is acknowledged first. -/
theorem cursor_keeps_outstanding_first : ∃ s, outbound.Reached CursorSafe (initial (twoTasks 1)) s ∧
      s.Outstanding (queued 1 1).position ∧ s.Kept (queued 1 1).position := by
  let labels : List OutboundLabel :=
    sendFirst ++ [.runner (.register 2 2), .runner .written, .peer (.puback 2 fun _ => true)]
  have he : ∃ s, outbound.run (initial (twoTasks 1)) labels = some s ∧
      s.Outstanding (queued 1 1).position :=
    ⟨_, rfl, ⟨1, 1, by decide⟩, by unfold AckedIn; decide⟩
  obtain ⟨s, he, ho⟩ := he
  have hr : outbound.Reached CursorSafe (initial (twoTasks 1)) s := by
    refine System.reached_of_run he ⟨?_, trivial, trivial, ?_, trivial, ?_, trivial, trivial,
      trivial⟩
    · rintro position ⟨⟨_, _, hs⟩, -⟩
      cases hs
    · rintro _ _ _ ⟨⟩ ⟨⟩
      decide
    · rintro _ _ _ ⟨⟩ ⟨⟩
      decide
  exact ⟨s, hr, ho, cursor_keeps_outstanding hr ho⟩

/-- A QoS 0 task behind a QoS 1 task that waits for its PUBACK moves the cursor over it. -/
theorem cursor_passes_outstanding :
    ∃ s, outbound.run (initial (twoTasks 0)) (sendFirst ++ [.runner (.advance .qos0 true)]) =
        some s ∧
      s.Outstanding (queued 1 1).position ∧ s.downlink.queue.Passed (queued 1 1).position ∧
      queued 1 1 ∉ s.downlink.queue.tasks :=
  ⟨_, rfl, ⟨⟨1, 1, by decide⟩, by unfold AckedIn; decide⟩, by decide, by decide⟩

end Outbound

end SkyTree.Client
