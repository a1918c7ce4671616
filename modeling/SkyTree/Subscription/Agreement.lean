import SkyTree.Subscription.Center
import SkyTree.Subscription.Trie

/-!
# The trie and the client tables agree

Every operation of the subscription center writes a subscription to the trie of its
shard and to the table of its client, or removes it from both. So in every state
the center can reach, a walk of the tries finds the stored subscriptions, each in
the shard of its first level.
-/

namespace SkyTree.Subscription

open Foundation KeyedTable TreeNode

namespace SubCore

variable (core : SubCore)

def optionAt (path : List String) (clientID : ClientID) : Option SubOption :=
  (core.root.clientsAt path).lookup clientID

theorem optionAt_store (clientID other : ClientID) (option : SubOption) (path : List String) :
    (core.store clientID option).optionAt path other =
      if path = splitTopicLevels option.topic ∧ other = clientID then some option
      else core.optionAt path other := by
  unfold optionAt
  rw [store, clientsAt_insert]
  by_cases pathEq : path = splitTopicLevels option.topic
  · by_cases cidEq : other = clientID <;> simp [pathEq, cidEq]
  · simp [pathEq]

theorem optionAt_deleteSub (clientID other : ClientID) (topic : String) (path : List String) :
    (core.deleteSub clientID topic).optionAt path other =
      if path = splitTopicLevels topic ∧ other = clientID then none
      else core.optionAt path other := by
  unfold optionAt deleteSub
  split
  next missing =>
    by_cases pathEq : path = splitTopicLevels topic
    · simp [pathEq, clientsAt_of_modifyAt_eq_none missing]
    · simp [pathEq]
  next hr =>
    rw [clientsAt_modifyAt hr]
    by_cases pathEq : path = splitTopicLevels topic
    · by_cases cidEq : other = clientID <;> simp [pathEq, cidEq]
    · simp [pathEq]

theorem mem_topicsOf_store {cid o : ClientID} {opt stored : SubOption} :
    stored ∈ (core.store cid opt).topicsOf o ↔
      (stored ∈ core.topicsOf o ∧ ¬(o = cid ∧ stored.topic = opt.topic)) ∨
        (o = cid ∧ stored = opt) := by
  by_cases he : o = cid
  · subst he
    simp
  · simp [he]

theorem mem_topicsOf_deleteSub {cid o : ClientID} {topic : String} {stored : SubOption} :
    stored ∈ (core.deleteSub cid topic).topicsOf o ↔
      stored ∈ core.topicsOf o ∧ ¬(o = cid ∧ stored.topic = topic) := by
  by_cases he : o = cid
  · subst he
    cases hf : (core.topicsOf o).get topic with
    | none =>
      rw [mem_def, entries_deleteSub_of_absent core hf, ← mem_def]
      have ha := get_eq_none_iff.mp hf
      constructor
      · intro hm
        exact ⟨hm, fun hit => ha stored hm hit.2⟩
      · exact And.left
    | some opt =>
      obtain ⟨hm, rfl⟩ := get_eq_some_iff.mp hf
      rw [topicsOf_deleteSub_self core hm]
      simp
  · rw [topicsOf_deleteSub_of_ne core topic he]
    simp [he]

/-- The two copies of a shard hold the same subscriptions, all of which belong to it. -/
structure Agrees (shardKey : String) : Prop where
  distinct : core.root.Distinct
  found : ∀ path clientID option, core.optionAt path clientID = some option ↔
    option ∈ core.topicsOf clientID ∧ splitTopicLevels option.topic = path
  valid : ∀ clientID option, option ∈ core.topicsOf clientID →
    validateTopicFilter option.topic = .ok ()
  keyed : ∀ clientID option, option ∈ core.topicsOf clientID →
    shardKeyFromTopic option.topic = shardKey

variable {core} {shardKey : String}

theorem empty_agrees (shardKey : String) : empty.Agrees shardKey where
  distinct := TreeNode.Distinct.of_childNode (distinct_fresh "/") rfl
  found := by
    intro path cid opt
    have hn : empty.root.clientsAt path = .empty := by cases path <;> rfl
    simp [optionAt, hn]
  valid := by simp
  keyed := by simp

theorem Agrees.store (ha : core.Agrees shardKey) (cid : ClientID) {opt : SubOption}
    (hv : validateTopicFilter opt.topic = .ok ())
    (hk : shardKeyFromTopic opt.topic = shardKey) :
    (core.store cid opt).Agrees shardKey where
  distinct := ha.distinct.insert cid opt _
  found := by
    intro path o stored
    rw [optionAt_store, mem_topicsOf_store]
    by_cases hit : path = splitTopicLevels opt.topic ∧ o = cid
    · obtain ⟨rfl, rfl⟩ := hit
      have topicEq : splitTopicLevels stored.topic = splitTopicLevels opt.topic ↔
          stored.topic = opt.topic := splitTopicLevels_injective.eq_iff
      rw [if_pos ⟨rfl, rfl⟩, topicEq]
      constructor
      · intro he
        cases he
        exact ⟨.inr ⟨rfl, rfl⟩, rfl⟩
      · rintro ⟨⟨-, miss⟩ | ⟨-, rfl⟩, he⟩
        · exact absurd ⟨rfl, he⟩ miss
        · rfl
    · rw [if_neg hit, ha.found]
      constructor
      · rintro ⟨hm, rfl⟩
        exact ⟨.inl ⟨hm, fun he => hit ⟨congrArg _ he.2, he.1⟩⟩, rfl⟩
      · rintro ⟨⟨hm, -⟩ | ⟨rfl, rfl⟩, rfl⟩
        · exact ⟨hm, rfl⟩
        · exact absurd ⟨rfl, rfl⟩ hit
  valid := by
    intro o stored hm
    rcases (mem_topicsOf_store core).mp hm with ⟨old, -⟩ | ⟨-, rfl⟩
    · exact ha.valid o stored old
    · exact hv
  keyed := by
    intro o stored hm
    rcases (mem_topicsOf_store core).mp hm with ⟨old, -⟩ | ⟨-, rfl⟩
    · exact ha.keyed o stored old
    · exact hk

theorem Agrees.deleteSub (ha : core.Agrees shardKey) (cid : ClientID) (topic : String) :
    (core.deleteSub cid topic).Agrees shardKey where
  distinct := by
    unfold SubCore.deleteSub
    split
    next => exact ha.distinct
    next hr => exact ha.distinct.modifyAt hr
  found := by
    intro path o stored
    rw [optionAt_deleteSub, mem_topicsOf_deleteSub]
    by_cases hit : path = splitTopicLevels topic ∧ o = cid
    · obtain ⟨rfl, rfl⟩ := hit
      simp [splitTopicLevels_injective.eq_iff]
    · rw [if_neg hit, ha.found]
      constructor
      · rintro ⟨hm, rfl⟩
        exact ⟨⟨hm, fun he => hit ⟨congrArg _ he.2, he.1⟩⟩, rfl⟩
      · rintro ⟨⟨hm, -⟩, he⟩
        exact ⟨hm, he⟩
  valid := fun o stored hm =>
    ha.valid o stored ((mem_topicsOf_deleteSub core).mp hm).1
  keyed := fun o stored hm =>
    ha.keyed o stored ((mem_topicsOf_deleteSub core).mp hm).1

theorem Agrees.deleteClient (ha : core.Agrees shardKey) (cid : ClientID) :
    (core.deleteClient cid).Agrees shardKey := by
  unfold SubCore.deleteClient
  generalize (core.topicsOf cid).entries = opts
  induction opts generalizing core with
  | nil => exact ha
  | cons opt rest ih =>
    exact ih (ha.deleteSub cid opt.topic)

end SubCore

/-- Every shard agrees with itself and holds only filters of its own key. -/
def ShardsAgree (shards : Assoc String SubCore) : Prop :=
  ∀ shardKey core, shards.lookup shardKey = some core → core.Agrees shardKey

section ShardsAgree

variable {shards : Assoc String SubCore} (agree : ShardsAgree shards)

include agree

theorem ShardsAgree.set {shardKey : String} {core : SubCore} (ha : core.Agrees shardKey) :
    ShardsAgree (Assoc.set shards shardKey core) := by
  intro key stored hf
  by_cases he : key = shardKey
  · subst he
    rw [Assoc.lookup_set_self] at hf
    cases hf
    exact ha
  · rw [Assoc.lookup_set_of_ne _ _ he] at hf
    exact agree key stored hf

theorem ShardsAgree.getD (shardKey : String) :
    ((shards.lookup shardKey).getD SubCore.empty).Agrees shardKey := by
  cases hf : shards.lookup shardKey with
  | none => exact SubCore.empty_agrees shardKey
  | some core => exact agree shardKey core hf

theorem ShardsAgree.deleteFromShards (cid : ClientID) (keys : List String) :
    ShardsAgree (deleteFromShards cid keys shards) := by
  induction keys generalizing shards with
  | nil => exact agree
  | cons shardKey rest ih =>
    refine ih ?_
    unfold deleteFromShard
    split
    next => exact agree
    next core found => exact agree.set ((agree shardKey core found).deleteClient cid)

end ShardsAgree

namespace MemorySubCenter

variable {cen : MemorySubCenter} (agree : ShardsAgree cen.shards)

include agree

variable (cid : ClientID)

theorem createOne_agree (opt : SubOption) : ShardsAgree (cen.createOne cid opt).1.shards := by
  unfold createOne
  split
  next => exact agree.set (agree.getD _)
  next valid => exact agree.set ((agree.getD _).store cid valid rfl)

theorem deleteOne_agree (topic : String) : ShardsAgree (cen.deleteOne cid topic).1.shards := by
  unfold deleteOne
  split
  next => exact agree
  next => split <;> exact agree.set ((agree.getD _).deleteSub cid topic)

theorem setOwnerToken_agree (token : OwnerToken) :
    ShardsAgree (cen.setOwnerToken cid token).shards := by
  unfold setOwnerToken
  split <;> exact agree

variable (tok : OwnerToken)

theorem createSub_agree (topics : List SubOption) :
    ShardsAgree (cen.createSub cid tok topics).1.shards :=
  createSub_preserves (P := fun cen => ShardsAgree cen.shards) topics agree
    (fun _ => setOwnerToken_agree agree cid tok)
    fun _ opt agree => createOne_agree agree cid opt

theorem deleteSub_agree (topics : List String) :
    ShardsAgree (cen.deleteSub cid tok topics).1.shards :=
  deleteSub_preserves (P := fun cen => ShardsAgree cen.shards) tok topics agree
    fun _ topic agree => deleteOne_agree agree cid topic

theorem setClientOwnerToken_agree : ShardsAgree (cen.setClientOwnerToken cid tok).1.shards := by
  unfold setClientOwnerToken
  split
  · exact agree
  · exact setOwnerToken_agree agree cid tok

theorem deleteClient_agree : ShardsAgree (cen.deleteClient cid tok).1.shards := by
  unfold deleteClient
  split
  · exact agree
  · split
    · exact agree
    · exact agree.deleteFromShards cid _

end MemorySubCenter

end SkyTree.Subscription
