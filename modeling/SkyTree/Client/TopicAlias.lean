import SkyTree.Foundation.KeyedTable
import SkyTree.Foundation.Transition

/-!
# Topic aliases of outbound PUBLISH packets

The alias manager of a connection numbers the topics it sends. The first packet
of a topic carries name and alias, later ones carry the alias alone. A packet
over the client's size limit is discarded and its alias taken back. The client fills a
table of its own from the packets it receives; the manager's never runs ahead of it.
-/

namespace SkyTree.Client

open Foundation List Assoc

structure AliasedPublish where
  topic : String
  topicAlias : Option Nat := none
  deriving DecidableEq, Repr

/-- Outbound alias state; `downlinkFree` is a stack with its top in front. -/
structure TopicAliasManager where
  downlinkTopicToAlias : Assoc String Nat := .empty
  downlinkNext : Nat := 0
  downlinkFree : List Nat := []
  downlinkMax : Nat := 0

namespace TopicAliasManager

variable (m : TopicAliasManager) (p : AliasedPublish)

def announce (number : Nat) : TopicAliasManager × AliasedPublish :=
  ({ m with downlinkTopicToAlias := m.downlinkTopicToAlias.set p.topic number },
    { p with topicAlias := some number })

/-- Sequential allocation from `1..downlinkMax`; an exhausted range leaves the packet plain. -/
def allocateNext : TopicAliasManager × AliasedPublish :=
  if m.downlinkNext ≥ m.downlinkMax then (m, p)
  else { m with downlinkNext := m.downlinkNext + 1 }.announce p (m.downlinkNext + 1)

/-- Aliases given back by a discarded announcement are used first. -/
def allocate : TopicAliasManager × AliasedPublish :=
  match m.downlinkFree with
  | number :: rest =>
    if number ≠ 0 ∧ number ≤ m.downlinkMax then
      { m with downlinkFree := rest }.announce p number
    else { m with downlinkFree := rest }.allocateNext p
  | [] => m.allocateNext p

/-- An inbound alias is never forwarded. -/
def applyDownlink : TopicAliasManager × AliasedPublish :=
  let plain := { p with topicAlias := none }
  if m.downlinkMax = 0 ∨ p.topic = "" then (m, plain)
  else
    match m.downlinkTopicToAlias.lookup p.topic with
    | some number =>
      if number = 0 ∨ number > m.downlinkMax then (m, plain)
      else (m, { topic := "", topicAlias := some number })
    | none => m.allocate plain

def revertDownlinkAlias (topic : String) : TopicAliasManager :=
  if topic = "" then m
  else
    match m.downlinkTopicToAlias.lookup topic with
    | none => m
    | some number =>
      { m with
        downlinkTopicToAlias := m.downlinkTopicToAlias.erase topic
        downlinkFree := if number > 0 then number :: m.downlinkFree else m.downlinkFree }

end TopicAliasManager

structure WritePacket where
  packet : AliasedPublish
  fullTopic : String

def revertDiscardedAlias (m : TopicAliasManager) (fullTopic publishTopic : String) :
    TopicAliasManager :=
  m.revertDownlinkAlias (if fullTopic = "" then publishTopic else fullTopic)

/-- What the client receives, `none` for a PUBLISH discarded over its Maximum Packet Size. -/
def writePublish (m : TopicAliasManager) (packet : WritePacket) (oversized : Bool) :
    TopicAliasManager × Option AliasedPublish :=
  let (applied, publish) := m.applyDownlink packet.packet
  if oversized then (revertDiscardedAlias applied packet.fullTopic publish.topic, none)
  else (applied, some publish)

/-! ## The client's table -/

variable (known : Nat → Option String)

def recordAlias (p : AliasedPublish) : Nat → Option String :=
  match p.topicAlias with
  | some number => if p.topic = "" then known else Function.update known number (some p.topic)
  | none => known

theorem recordAlias_announced {p : AliasedPublish} (hn : p.topic ≠ "") (num : Nat) :
    recordAlias known { p with topicAlias := some num } =
      Function.update known num (some p.topic) :=
  if_neg hn

/-- The topic of a received packet, `none` for an alias that was never told. -/
def resolveTopic (p : AliasedPublish) : Option String :=
  match p.topicAlias with
  | some number => if p.topic = "" then known number else some p.topic
  | none => some p.topic

structure AliasedConnection where
  manager : TopicAliasManager
  known : Nat → Option String

def AliasedConnection.connected (maximum : Nat) : AliasedConnection where
  manager := { downlinkMax := maximum }
  known _ := none

/-- The broker writes a PUBLISH; every caller passes the topic of the packet as the full topic. -/
def AliasedConnection.send (s : AliasedConnection) (publish : AliasedPublish) (oversized : Bool) :
    TopicAliasManager × Option AliasedPublish :=
  writePublish s.manager ⟨publish, publish.topic⟩ oversized

def aliasedConnection : System AliasedConnection (AliasedPublish × Bool) where
  step s write :=
    let (manager, written) := s.send write.1 write.2
    some
      { manager := manager
        known := match written with
          | some publish => recordAlias s.known publish
          | none => s.known }

/-! ## Agreement of the tables -/

structure AliasedConnection.Synced (maximum : Nat) (s : AliasedConnection) : Prop where
  limit : s.manager.downlinkMax = maximum
  next : s.manager.downlinkNext ≤ maximum
  used : ∀ topic number, s.manager.downlinkTopicToAlias.lookup topic = some number →
    s.known number = some topic ∧ 0 < number ∧ number ≤ s.manager.downlinkNext
  free : ∀ number ∈ s.manager.downlinkFree, 0 < number ∧ number ≤ s.manager.downlinkNext ∧
    ∀ topic, s.manager.downlinkTopicToAlias.lookup topic ≠ some number
  distinct : s.manager.downlinkFree.Nodup

inductive Applies (s : AliasedConnection) (p : AliasedPublish) :
    TopicAliasManager × AliasedPublish → Prop where
  | plain : Applies s p (s.manager, { p with topicAlias := none })
  | known (number : Nat) (named : p.topic ≠ "")
      (used : s.manager.downlinkTopicToAlias.lookup p.topic = some number) :
      Applies s p (s.manager, { topic := "", topicAlias := some number })
  | reused (number : Nat) (rest : List Nat) (named : p.topic ≠ "")
      (unused : s.manager.downlinkTopicToAlias.lookup p.topic = none)
      (top : s.manager.downlinkFree = number :: rest) :
      Applies s p ({ s.manager with downlinkFree := rest }.announce p number)
  | fresh (named : p.topic ≠ "")
      (unused : s.manager.downlinkTopicToAlias.lookup p.topic = none)
      (nothing : s.manager.downlinkFree = [])
      (room : s.manager.downlinkNext < s.manager.downlinkMax) :
      Applies s p ({ s.manager with downlinkNext := s.manager.downlinkNext + 1 }.announce p
        (s.manager.downlinkNext + 1))

namespace AliasedConnection

variable {max : Nat} {s : AliasedConnection} {p : AliasedPublish}

theorem Synced.applies (hs : s.Synced max) : Applies s p (s.manager.applyDownlink p) := by
  unfold TopicAliasManager.applyDownlink
  dsimp only
  split
  next => exact .plain
  next usable =>
    obtain ⟨-, hn⟩ := not_or.mp usable
    split
    next num used =>
      obtain ⟨-, hp, hb⟩ := hs.used p.topic num used
      have inRange : ¬(num = 0 ∨ num > s.manager.downlinkMax) := by
        have := hs.next
        have := hs.limit
        omega
      rw [if_neg inRange]
      exact .known num hn used
    next unused =>
      unfold TopicAliasManager.allocate
      split
      next num rest top =>
        obtain ⟨hp, hb, -⟩ := hs.free num (top ▸ mem_cons_self)
        have inRange : num ≠ 0 ∧ num ≤ s.manager.downlinkMax := by
          have := hs.next
          have := hs.limit
          omega
        rw [if_pos inRange]
        exact .reused num rest hn unused top
      next nothing =>
        unfold TopicAliasManager.allocateNext
        split
        next => exact .plain
        next room => exact .fresh hn unused nothing (Nat.lt_of_not_ge room)

theorem Synced.announced (synced : s.Synced max) {m : TopicAliasManager} {number : Nat}
    (named : p.topic ≠ "") (same : m.downlinkTopicToAlias = s.manager.downlinkTopicToAlias)
    (limit : m.downlinkMax = s.manager.downlinkMax) (next : m.downlinkNext ≤ max)
    (grown : s.manager.downlinkNext ≤ m.downlinkNext) (positive : 0 < number)
    (bound : number ≤ m.downlinkNext)
    (unused : ∀ topic, s.manager.downlinkTopicToAlias.lookup topic ≠ some number)
    (free : ∀ other ∈ m.downlinkFree, other ∈ s.manager.downlinkFree ∧ other ≠ number)
    (distinct : m.downlinkFree.Nodup) :
    Synced max ⟨(m.announce p number).1, recordAlias s.known (m.announce p number).2⟩ where
  limit := limit.trans synced.limit
  next := next
  used topic other found := by
    simp only [TopicAliasManager.announce, recordAlias_announced _ named] at found ⊢
    by_cases own : topic = p.topic
    · subst own
      rw [lookup_set_self] at found
      cases found
      exact ⟨Function.update_self .., positive, bound⟩
    · rw [lookup_set_of_ne _ _ own, same] at found
      obtain ⟨told, low, high⟩ := synced.used topic other found
      have different : other ≠ number := fun hit => unused topic (hit ▸ found)
      exact ⟨by rw [Function.update_of_ne different, told], low, high.trans grown⟩
  free other member := by
    obtain ⟨kept, different⟩ := free other member
    obtain ⟨low, high, apart⟩ := synced.free other kept
    refine ⟨low, high.trans grown, fun topic found => ?_⟩
    simp only [TopicAliasManager.announce] at found
    by_cases own : topic = p.topic
    · subst own
      rw [lookup_set_self] at found
      exact different (Option.some.inj found).symm
    · rw [lookup_set_of_ne _ _ own, same] at found
      exact apart topic found
  distinct := distinct

variable {result : TopicAliasManager × AliasedPublish}

theorem Synced.written (hs : s.Synced max) (applies : Applies s p result) :
    Synced max ⟨result.1, recordAlias s.known result.2⟩ := by
  cases applies with
  | plain => exact hs
  | known num hn used => simpa [recordAlias] using hs
  | reused num rest hn hu top =>
    obtain ⟨hp, hb, ha⟩ := hs.free num (top ▸ mem_cons_self)
    have hd := nodup_cons.mp (top ▸ hs.distinct)
    refine hs.announced hn rfl rfl hs.next le_rfl hp hb ha
      (fun o hm => ⟨top ▸ mem_cons_of_mem _ hm, ?_⟩) hd.2
    rintro rfl
    exact hd.1 hm
  | fresh hn hu bare hr =>
    have hl := hs.limit
    refine hs.announced hn rfl rfl (by dsimp only; omega) (Nat.le_succ _)
      (Nat.succ_pos _) le_rfl (fun topic hf => ?_)
      (fun o hm => by simp [bare] at hm) hs.distinct
    have hh := (hs.used topic _ hf).2.2
    omega

theorem Synced.reverted (hs : s.Synced max) (topic : String) :
    Synced max { s with manager := s.manager.revertDownlinkAlias topic } := by
  unfold TopicAliasManager.revertDownlinkAlias
  split
  next => exact hs
  next hn =>
    split
    next => exact hs
    next num hf =>
      obtain ⟨ht, hp, hb⟩ := hs.used topic num hf
      rw [if_pos hp]
      -- an alias that is still used belongs to another topic
      have hk {o : String} {used : Nat}
          (hl : Assoc.lookup (s.manager.downlinkTopicToAlias.erase topic) o = some used) :
          o ≠ topic ∧ s.manager.downlinkTopicToAlias.lookup o = some used := by
        by_cases own : o = topic
        · subst own
          simp at hl
        · rw [lookup_erase_of_ne _ own] at hl
          exact ⟨own, hl⟩
      refine ⟨hs.limit, hs.next, fun o used hl => ?_, fun o hm => ?_,
        nodup_cons.mpr ⟨fun hm => (hs.free num hm).2.2 topic hf, hs.distinct⟩⟩
      · exact hs.used o used (hk hl).2
      · rcases mem_cons.mp hm with rfl | hm
        · refine ⟨hp, hb, fun owner hl => ?_⟩
          have used := (hs.used owner o (hk hl).2).1
          exact (hk hl).1 (Option.some.inj (used.symm.trans ht))
        · obtain ⟨low, hh, ha⟩ := hs.free o hm
          exact ⟨low, hh, fun owner hl => ha owner (hk hl).2⟩

/-- A discarded packet leaves the tables in step: the client has recorded nothing. -/
theorem Synced.discarded (hs : s.Synced max) (ha : Applies s p result) : Synced max
      { s with manager := revertDiscardedAlias result.1 p.topic result.2.topic } := by
  cases ha with
  | plain | known num hn used => exact hs.reverted _
  | reused num rest hn hu top =>
    have hp := (hs.free num (top ▸ mem_cons_self)).1
    have hr : revertDiscardedAlias
        ({ s.manager with downlinkFree := rest }.announce p num).1 p.topic p.topic = s.manager := by
      simp [revertDiscardedAlias, TopicAliasManager.revertDownlinkAlias,
        TopicAliasManager.announce, hn, erase_set_of_absent hu, hp, ← top]
    exact hr.symm ▸ hs
  | fresh hn hu bare room =>
    have hr : revertDiscardedAlias ({ s.manager with
        downlinkNext := s.manager.downlinkNext + 1 }.announce p
          (s.manager.downlinkNext + 1)).1 p.topic p.topic =
        { s.manager with
          downlinkNext := s.manager.downlinkNext + 1
          downlinkFree := [s.manager.downlinkNext + 1] } := by
      simp [revertDiscardedAlias, TopicAliasManager.revertDownlinkAlias,
        TopicAliasManager.announce, hn, erase_set_of_absent hu, bare]
    have hl := hs.limit
    refine hr.symm ▸ ⟨hl, by dsimp only; omega, fun topic num hf => ?_,
      fun num hm => ?_, nodup_singleton _⟩
    · obtain ⟨ht, low, hh⟩ := hs.used topic num hf
      exact ⟨ht, low, Nat.le_succ_of_le hh⟩
    · obtain rfl := mem_singleton.mp hm
      refine ⟨Nat.succ_pos _, le_rfl, fun topic hf => ?_⟩
      have hh := (hs.used topic _ hf).2.2
      omega

theorem Synced.step (hs : s.Synced max) {write : AliasedPublish × Bool}
    {next : AliasedConnection} (ht : aliasedConnection.step s write = some next) :
    next.Synced max := by
  obtain ⟨pub, oversized⟩ := write
  cases ht
  have ha : Applies s pub (s.manager.applyDownlink pub) := hs.applies
  cases oversized with
  | true => exact hs.discarded ha
  | false => exact hs.written ha

theorem connected_synced (max : Nat) : (connected max).Synced max where
  limit := rfl
  next := Nat.zero_le _
  used _ _ found := by simp [connected] at found
  free _ member := by simp [connected] at member
  distinct := nodup_nil

theorem Synced.resolves (hs : s.Synced max) (ha : Applies s p result) :
    resolveTopic s.known result.2 = some p.topic ∧ ∀ num, result.2.topicAlias = some num →
        0 < num ∧ num ≤ max ∧ (result.2.topic = "" → s.known num ≠ none) := by
  have next := hs.next
  cases ha with
  | plain => exact ⟨rfl, nofun⟩
  | known num hn used =>
    obtain ⟨ht, low, hh⟩ := hs.used p.topic num used
    refine ⟨by simpa [resolveTopic] using ht, ?_⟩
    rintro _ ⟨⟩
    exact ⟨low, hh.trans next, fun _ => by simp [ht]⟩
  | reused num rest hn unused top =>
    obtain ⟨low, hh, -⟩ := hs.free num (top ▸ mem_cons_self)
    refine ⟨by simp [resolveTopic, TopicAliasManager.announce, hn], ?_⟩
    rintro _ ⟨⟩
    exact ⟨low, hh.trans next, fun hu => absurd hu hn⟩
  | fresh hn unused bare hr =>
    have hl := hs.limit
    refine ⟨by simp [resolveTopic, TopicAliasManager.announce, hn], ?_⟩
    rintro _ ⟨⟩
    exact ⟨Nat.succ_pos _, by omega, fun hu => absurd hu hn⟩

end AliasedConnection

/-- After any writes and discards, the next packet resolves to the topic it was written for. -/
theorem downlink_aliases_resolve {maximum : Nat} {s : AliasedConnection}
    (reached : aliasedConnection.Reached (fun _ _ => True) (.connected maximum) s)
    {publish written : AliasedPublish} {oversized : Bool}
    (sent : (s.send publish oversized).2 = some written) :
    resolveTopic s.known written = some publish.topic ∧ ∀ number, written.topicAlias = some number →
        0 < number ∧ number ≤ maximum ∧ (written.topic = "" → s.known number ≠ none) := by
  have hs : s.Synced maximum := reached.invariant (AliasedConnection.connected_synced maximum)
      fun _ _ _ hs _ ht => hs.step ht
  cases oversized with
  | true => cases sent
  | false =>
    cases sent
    exact hs.resolves hs.applies

/-- The first announcement of `t` is discarded, its alias goes to `u`, and `t` gets the next. -/
theorem downlink_aliases_resolve_after_discard :
    ∃ s written, aliasedConnection.Reached (fun _ _ => True) (.connected 2) s ∧
      (s.send { topic := "t" } false).2 = some written ∧
      written = { topic := "", topicAlias := some 2 } ∧
      resolveTopic s.known written = some "t" := by
  have he : ∃ s, aliasedConnection.run (.connected 2)
      [({ topic := "t" }, true), ({ topic := "u" }, false), ({ topic := "t" }, false)] = some s ∧
      (s.send { topic := "t" } false).2 = some { topic := "", topicAlias := some 2 } :=
    ⟨_, rfl, by decide⟩
  obtain ⟨s, he, hs⟩ := he
  have hr := System.reached_of_run he (.of_forall fun _ _ _ => trivial)
  exact ⟨s, _, hr, hs, rfl, (downlink_aliases_resolve hr hs).1⟩

end SkyTree.Client
