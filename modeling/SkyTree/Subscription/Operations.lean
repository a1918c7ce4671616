import SkyTree.Subscription.Agreement

/-!
# Runs of the subscription center

A topic is deleted from the trie, from the tables of the clients found there and from their
counters, so the three stay in step only while they agree before. A center that carries this
agreement is kept by every operation, and the statements about whole runs are read off it.
-/

namespace SkyTree.Subscription

open Foundation List KeyedTable MemorySubCenter TreeNode

/-! ## Deleting a topic in a shard -/

/-- `deleteTopic` drops all clients of the node. -/
def TreeNode.clear (path : List String) (node : TreeNode) : Option TreeNode :=
  node.modifyAt (fun _ => .empty) path

namespace SubCore

variable {core : SubCore} {cid other : ClientID} {topic : String}

theorem topicsOf_withoutTopic (core : SubCore) (cid other : ClientID) (topic : String) :
    ((core.withoutTopic cid topic).lookup other).getD .empty =
      if other = cid then (core.topicsOf other).erase topic else core.topicsOf other := by
  by_cases he : other = cid
  · subst he
    rw [if_pos rfl, lookup_withoutTopic_self]
  · rw [if_neg he, lookup_withoutTopic_of_ne core topic he]
    rfl

def forgetTopic (core : SubCore) (clientID : ClientID) (topic : String) : SubCore where
  root := core.root
  clients := core.withoutTopic clientID topic
  traced := by
    intro other topics option found member
    have kept := core.topicsOf_withoutTopic clientID other topic
    rw [found, Option.getD_some] at kept
    rw [kept] at member
    split at member
    · exact hasPath_of_mem_topicsOf (mem_erase.mp member).1
    · exact hasPath_of_mem_topicsOf member

def forgetAll (core : SubCore) (topic : String) (clientIDs : List ClientID) : SubCore :=
  clientIDs.foldl (fun kept clientID => kept.forgetTopic clientID topic) core

theorem root_forgetAll (core : SubCore) (topic : String) (clientIDs : List ClientID) :
    (core.forgetAll topic clientIDs).root = core.root := by
  induction clientIDs generalizing core with
  | nil => rfl
  | cons cid rest ih => exact ih (core.forgetTopic cid topic)

theorem topicsOf_forgetAll (core : SubCore) (topic : String) {clientIDs : List ClientID}
    (hd : clientIDs.Nodup) (other : ClientID) :
    (core.forgetAll topic clientIDs).topicsOf other =
      if other ∈ clientIDs then (core.topicsOf other).erase topic else core.topicsOf other := by
  induction clientIDs generalizing core with
  | nil => rfl
  | cons cid rest ih =>
    rw [nodup_cons] at hd
    rw [forgetAll, foldl_cons]
    refine (ih (core.forgetTopic cid topic) hd.2).trans ?_
    rw [show (core.forgetTopic cid topic).topicsOf other = _ from
      core.topicsOf_withoutTopic cid other topic]
    by_cases he : other = cid
    · subst he
      simp [hd.1]
    · simp [he]

def clientsOf (core : SubCore) (topic : String) : List ClientID :=
  (core.root.clientsAt (splitTopicLevels topic)).entries.map Prod.fst

theorem nodup_clientsOf (core : SubCore) (topic : String) : (core.clientsOf topic).Nodup :=
  KeyedTable.distinct _

theorem mem_clientsOf_iff {core : SubCore} {topic : String} {cid : ClientID} :
    cid ∈ core.clientsOf topic ↔
      ∃ option, core.optionAt (splitTopicLevels topic) cid = some option := by
  unfold clientsOf optionAt
  constructor
  · intro member
    obtain ⟨⟨_, option⟩, stored, rfl⟩ := mem_map.mp member
    exact ⟨option, Assoc.lookup_eq_some_iff.mpr stored⟩
  · rintro ⟨option, found⟩
    exact mem_map.mpr ⟨(cid, option), Assoc.lookup_eq_some_iff.mp found, rfl⟩

/-- `deleteTopic` with the clients it was removed from. -/
def deleteTopic (core : SubCore) (topic : String) : SubCore × List ClientID :=
  match cleared : core.root.clear (splitTopicLevels topic) with
  | none => (core, [])
  | some root =>
    ({ root := root
       clients := (core.forgetAll topic (core.clientsOf topic)).clients
       traced := by
        intro clientID topics option found member
        have present := (core.forgetAll topic (core.clientsOf topic)).traced clientID topics
          option found member
        rw [root_forgetAll] at present
        exact present.modifyAt cleared },
      core.clientsOf topic)

theorem clientsOf_of_clear_eq_none
    (hm : core.root.clear (splitTopicLevels topic) = none) : core.clientsOf topic = [] := by
  rw [clientsOf, clientsAt_of_modifyAt_eq_none hm]
  rfl

theorem deleteTopic_clients : (core.deleteTopic topic).2 = core.clientsOf topic := by
  unfold deleteTopic
  split
  next missing => exact (clientsOf_of_clear_eq_none missing).symm
  next => rfl

theorem optionAt_deleteTopic (path : List String) : (core.deleteTopic topic).1.optionAt path other =
      if path = splitTopicLevels topic then none else core.optionAt path other := by
  unfold optionAt deleteTopic
  split
  next missing =>
    by_cases he : path = splitTopicLevels topic
    · rw [if_pos he, he, clientsAt_of_modifyAt_eq_none missing]
      rfl
    · rw [if_neg he]
  next hc =>
    rw [clientsAt_modifyAt hc]
    split
    · rfl
    · rfl

theorem topicsOf_deleteTopic (other : ClientID) : (core.deleteTopic topic).1.topicsOf other =
      if other ∈ core.clientsOf topic then (core.topicsOf other).erase topic
      else core.topicsOf other := by
  unfold deleteTopic
  split
  next missing =>
    rw [clientsOf_of_clear_eq_none missing]
    rfl
  next => exact core.topicsOf_forgetAll topic (core.nodup_clientsOf topic) other

variable {shardKey : String}

theorem Agrees.mem_clientsOf_iff (ha : core.Agrees shardKey) :
    other ∈ core.clientsOf topic ↔ ∃ option, (core.topicsOf other).get topic = some option := by
  rw [SubCore.mem_clientsOf_iff]
  refine exists_congr fun option => ?_
  rw [ha.found, get_eq_some_iff, splitTopicLevels_injective.eq_iff]

theorem Agrees.mem_topicsOf_deleteTopic (agrees : core.Agrees shardKey) {stored : SubOption} :
    stored ∈ (core.deleteTopic topic).1.topicsOf other ↔
      stored ∈ core.topicsOf other ∧ stored.topic ≠ topic := by
  rw [topicsOf_deleteTopic]
  by_cases hp : other ∈ core.clientsOf topic
  · rw [if_pos hp, mem_erase]
  · rw [if_neg hp]
    have ha : (core.topicsOf other).get topic = none := by
      rw [agrees.mem_clientsOf_iff] at hp
      exact Option.eq_none_iff_forall_ne_some.mpr fun opt hf => hp ⟨opt, hf⟩
    have miss := get_eq_none_iff.mp ha stored
    exact ⟨fun hm => ⟨hm, miss hm⟩, And.left⟩

theorem Agrees.deleteTopic (ha : core.Agrees shardKey) (topic : String) :
    (core.deleteTopic topic).1.Agrees shardKey where
  distinct := by
    unfold SubCore.deleteTopic
    split
    next => exact ha.distinct
    next hc => exact ha.distinct.modifyAt hc
  found := by
    intro path other stored
    rw [optionAt_deleteTopic, ha.mem_topicsOf_deleteTopic]
    by_cases hit : path = splitTopicLevels topic
    · subst hit
      simp [splitTopicLevels_injective.eq_iff]
    · rw [if_neg hit, ha.found]
      constructor
      · rintro ⟨hm, rfl⟩
        exact ⟨⟨hm, fun he => hit (congrArg _ he)⟩, rfl⟩
      · rintro ⟨⟨hm, -⟩, he⟩
        exact ⟨hm, he⟩
  valid := fun other stored hm =>
    ha.valid other stored (ha.mem_topicsOf_deleteTopic.mp hm).1
  keyed := fun other stored hm =>
    ha.keyed other stored (ha.mem_topicsOf_deleteTopic.mp hm).1

end SubCore

/-! ## Deleting a topic in the center -/

theorem indexCount_foldl_decCount {index : ClientID → Assoc String Nat} {shardKey key : String}
    {clientIDs : List ClientID} (hd : clientIDs.Nodup) {other : ClientID}
    (hn : other ≠ "") :
    indexCount (clientIDs.foldl (fun index cid => decCount index cid shardKey) index) other key =
      if other ∈ clientIDs ∧ key = shardKey then indexCount index other key - 1
      else indexCount index other key := by
  induction clientIDs generalizing index with
  | nil => simp
  | cons cid rest ih =>
    rw [nodup_cons] at hd
    rw [foldl_cons, ih hd.2]
    by_cases hit : other = cid ∧ key = shardKey
    · obtain ⟨rfl, rfl⟩ := hit
      simp [hd.1, indexCount_decCount_self index hn]
    · rw [indexCount_decCount_of_ne index (not_and_or.mp hit)]
      by_cases keyEq : key = shardKey
      · have hne : other ≠ cid := fun he => hit ⟨he, keyEq⟩
        simp [keyEq, hne]
      · simp [keyEq]

structure AgreedCenter extends MemorySubCenter where
  agree : ShardsAgree shards

namespace AgreedCenter

def empty : AgreedCenter where
  toMemorySubCenter := .empty
  agree := by
    intro shardKey core found
    simp [MemorySubCenter.empty] at found

variable (center : AgreedCenter)

def deleteTopicIn (topic : String) (core : SubCore)
    (found : center.shards.lookup (shardKeyFromTopic topic) = some core) : AgreedCenter where
  shards := Assoc.set center.shards (shardKeyFromTopic topic) (core.deleteTopic topic).1
  index := (core.deleteTopic topic).2.foldl
    (fun index clientID => decCount index clientID (shardKeyFromTopic topic)) center.index
  clientOwnerTokens := center.clientOwnerTokens
  counted := by
    intro other key named
    have agrees := center.agree _ core found
    have before := center.counted other key named
    rw [SubCore.deleteTopic_clients, indexCount_foldl_decCount (core.nodup_clientsOf topic) named,
      before]
    by_cases sameKey : key = shardKeyFromTopic topic
    · subst sameKey
      have here : topicsIn center.shards (shardKeyFromTopic topic) other = core.topicsOf other := by
        rw [topicsIn, found]
        rfl
      rw [topicsIn_set_self, SubCore.topicsOf_deleteTopic, here]
      by_cases present : other ∈ core.clientsOf topic
      · obtain ⟨option, stored⟩ := agrees.mem_clientsOf_iff.mp present
        have shorter := (core.topicsOf other).length_erase_add_of_get stored
        rw [if_pos ⟨present, rfl⟩, if_pos present]
        omega
      · rw [if_neg fun both => present both.1, if_neg present]
    · rw [if_neg fun both => sameKey both.2, topicsIn_set_of_ne _ _ sameKey]
  agree := center.agree.set ((center.agree _ core found).deleteTopic topic)

def deleteTopic (topic : String) : AgreedCenter :=
  match found : center.shards.lookup (shardKeyFromTopic topic) with
  | none => center
  | some core => center.deleteTopicIn topic core found

variable (clientID : ClientID) (ownerToken : OwnerToken)

def createSub (topics : List SubOption) : AgreedCenter × List (String × Int) :=
  let result := center.toMemorySubCenter.createSub clientID ownerToken topics
  (⟨result.1, createSub_agree center.agree clientID ownerToken topics⟩, result.2)

def deleteSub (topics : List String) : AgreedCenter × List Int :=
  let result := center.toMemorySubCenter.deleteSub clientID ownerToken topics
  (⟨result.1, deleteSub_agree center.agree clientID ownerToken topics⟩, result.2)

def deleteClient :
    AgreedCenter × Bool :=
  let result := center.toMemorySubCenter.deleteClient clientID ownerToken
  (⟨result.1, deleteClient_agree center.agree clientID ownerToken⟩, result.2)

def setClientOwnerToken :
    AgreedCenter × Bool :=
  let result := center.toMemorySubCenter.setClientOwnerToken clientID ownerToken
  (⟨result.1, setClientOwnerToken_agree center.agree clientID ownerToken⟩, result.2)

end AgreedCenter

/-! ## Sequences of operations -/

inductive Operation where
  | createSub (clientID : ClientID) (ownerToken : OwnerToken) (topics : List SubOption)
  | deleteSub (clientID : ClientID) (ownerToken : OwnerToken) (topics : List String)
  | deleteTopic (topic : String)
  | deleteClient (clientID : ClientID) (ownerToken : OwnerToken)
  | setClientOwnerToken (clientID : ClientID) (ownerToken : OwnerToken)

inductive Response where
  | created (topics : List (String × Int))
  | deleted (codes : List Int)
  | done (success : Bool)
  deriving DecidableEq

namespace AgreedCenter

def perform (center : AgreedCenter) : Operation → AgreedCenter × Response
  | .createSub clientID ownerToken topics =>
    let result := center.createSub clientID ownerToken topics
    (result.1, .created result.2)
  | .deleteSub clientID ownerToken topics =>
    let result := center.deleteSub clientID ownerToken topics
    (result.1, .deleted result.2)
  | .deleteTopic topic => (center.deleteTopic topic, .done true)
  | .deleteClient clientID ownerToken =>
    let result := center.deleteClient clientID ownerToken
    (result.1, .done result.2)
  | .setClientOwnerToken clientID ownerToken =>
    let result := center.setClientOwnerToken clientID ownerToken
    (result.1, .done result.2)

def after (center : AgreedCenter) (operations : List Operation) : AgreedCenter :=
  operations.foldl (fun center operation => (center.perform operation).1) center

end AgreedCenter

/-- The center is the result of some sequence of operations. -/
def MemorySubCenter.Reachable (center : MemorySubCenter) : Prop :=
  ∃ operations, center = (AgreedCenter.empty.after operations).toMemorySubCenter

theorem MemorySubCenter.Reachable.agree {center : MemorySubCenter}
    (reachable : center.Reachable) : ShardsAgree center.shards := by
  obtain ⟨operations, rfl⟩ := reachable
  exact (AgreedCenter.empty.after operations).agree

namespace AgreedCenter

theorem deleteClient_topicsOf {center : AgreedCenter} {cid : ClientID}
    {ownerToken : OwnerToken} (hn : cid ≠ "")
    (ha : (center.deleteClient cid ownerToken).2 = true) {shardKey : String}
    {core : SubCore}
    (hf : (center.deleteClient cid ownerToken).1.shards.lookup shardKey = some core) :
    core.topicsOf cid = .empty := by
  have allowed : ownerToken = "" ∨ center.getOwnerToken cid = ownerToken := by
    by_contra hne
    rw [not_or] at hne
    have hr := center.toMemorySubCenter.deleteClient_fenced hne.1 hne.2
    have answer : (center.toMemorySubCenter.deleteClient cid ownerToken).2 = true := ha
    rw [hr] at answer
    cases answer
  have hg := center.toMemorySubCenter.deleteClient_subscriptions_self hn allowed shardKey
  have raw : (center.toMemorySubCenter.deleteClient cid ownerToken).1.shards.lookup shardKey =
      some core := hf
  rwa [MemorySubCenter.subscriptions, topicsIn, raw] at hg

end AgreedCenter

/-- After every sequence of operations the trie holds what the client tables hold, the counters
count it, and an accepted `DeleteClient` leaves no trace of its client in any trie. -/
theorem center_in_step (operations : List Operation) (clientID : ClientID) (named : clientID ≠ "") :
    let center := AgreedCenter.empty.after operations
    (∀ shardKey core, center.shards.lookup shardKey = some core →
      ∀ filter option, core.optionAt (splitTopicLevels filter) clientID = some option ↔
        (core.topicsOf clientID).get filter = some option) ∧
    (∀ shardKey, indexCount center.index clientID shardKey =
      (topicsIn center.shards shardKey clientID).entries.length) ∧
    ∀ ownerToken, (center.deleteClient clientID ownerToken).2 = true → ∀ shardKey core,
        (center.deleteClient clientID ownerToken).1.shards.lookup shardKey = some core →
        ∀ path, core.optionAt path clientID = none := by
  intro center
  refine ⟨fun shardKey core hf filter option => ?_,
    fun shardKey => center.counted clientID shardKey named,
    fun ownerToken ha shardKey core hf path => ?_⟩
  · rw [(center.agree shardKey core hf).found, get_eq_some_iff, splitTopicLevels_injective.eq_iff]
  · have hg := AgreedCenter.deleteClient_topicsOf named ha hf
    have agrees := (center.deleteClient clientID ownerToken).1.agree shardKey core hf
    refine Option.eq_none_iff_forall_ne_some.mpr fun option hp => ?_
    have hs := ((agrees.found path clientID option).mp hp).1
    rw [hg] at hs
    exact not_mem_empty option hs

def replacedAndDeleted : List Operation :=
  [.createSub "alice" "t1" [{ topic := "a/b", qos := 0 }, { topic := "a/+", qos := 1 }],
    .createSub "alice" "t1" [{ topic := "a/b", qos := 2 }], .deleteTopic "a/+"]

theorem center_in_step_replaced :
    indexCount (AgreedCenter.empty.after replacedAndDeleted).index "alice" "a" = 1 ∧
      (topicsIn (AgreedCenter.empty.after replacedAndDeleted).shards "a" "alice").entries.length =
        1 := by
  have hc := (center_in_step replacedAndDeleted "alice" (by decide)).2.1 "a"
  have count : indexCount (AgreedCenter.empty.after replacedAndDeleted).index "alice" "a" = 1 := by
    decide +kernel
  exact ⟨count, hc ▸ count⟩

/-- A `DeleteClient` with a foreign token deletes nothing. -/
theorem refused_deleteClient_keeps : ∃ center core, center = (AgreedCenter.empty.after
        [.createSub "alice" "t1" [{ topic := "a", qos := 1 }]]).perform
          (.deleteClient "alice" "t2") ∧
      center.1.shards.lookup "a" = some core ∧ (core.optionAt ["a"] "alice").isSome = true :=
  ⟨_, _, rfl, rfl, by decide +kernel⟩

end SkyTree.Subscription
