import SkyTree.Subscription.NilMaps

/-!
# Snapshots of the subscription center

A snapshot keeps the shards and the owner tokens; the index of a recovered center is counted again
from the client tables. The operations use the index only to find the shards of a client, so a
center and its recovered copy answer every operation alike and stay alike. Their reads agree too,
as far as they do not see which child maps are nil.
-/

namespace SkyTree.Subscription

open Foundation List Assoc TreeNode

/-! ## Two centers side by side -/

structure ShardRelation (R : SubCore → SubCore → Prop) : Prop where
  clients : ∀ {first second}, R first second → first.clients = second.clients
  empty : R .empty .empty
  store : ∀ {first second}, R first second → ∀ clientID {option},
    validateTopicFilter option.topic = .ok () →
      R (first.store clientID option) (second.store clientID option)
  deleteSub : ∀ {first second}, R first second → ∀ clientID topic,
    R (first.deleteSub clientID topic) (second.deleteSub clientID topic)
  deleteTopic : ∀ {first second}, R first second → ∀ topic,
    R (first.deleteTopic topic).1 (second.deleteTopic topic).1

namespace ShardRelation

variable {R : SubCore → SubCore → Prop} {first snd : SubCore}

theorem topicsOf (relation : ShardRelation R) (rel : R first snd) (clientID : ClientID) :
    first.topicsOf clientID = snd.topicsOf clientID := by
  rw [SubCore.topicsOf, relation.clients rel, SubCore.topicsOf]

theorem deleteClient (relation : ShardRelation R) (rel : R first snd) (clientID : ClientID) :
    R (first.deleteClient clientID) (snd.deleteClient clientID) := by
  unfold SubCore.deleteClient
  rw [relation.topicsOf rel]
  generalize (snd.topicsOf clientID).entries = options
  induction options generalizing first snd with
  | nil => exact rel
  | cons option rest ih =>
    exact ih (relation.deleteSub rel clientID option.topic)

end ShardRelation

structure Related (R : SubCore → SubCore → Prop) (first second : MemorySubCenter) : Prop where
  shards : ∀ shardKey, Option.Rel R (first.shards.lookup shardKey) (second.shards.lookup shardKey)
  tokens : first.clientOwnerTokens = second.clientOwnerTokens

section Related

variable {R : SubCore → SubCore → Prop} {first snd : MemorySubCenter}

theorem rel_set {shards others : Assoc String SubCore}
    (rel : ∀ shardKey, Option.Rel R (shards.lookup shardKey) (others.lookup shardKey))
    {core o : SubCore} (hs : R core o) (shardKey key : String) :
    Option.Rel R ((Assoc.set shards shardKey core).lookup key)
      ((Assoc.set others shardKey o).lookup key) := by
  by_cases he : key = shardKey
  · subst he
    rw [lookup_set_self, lookup_set_self]
    exact .some hs
  · rw [lookup_set_of_ne _ _ he, lookup_set_of_ne _ _ he]
    exact rel key

theorem Related.lookup (rel : Related R first snd) (shardKey : String) :
    first.shards.lookup shardKey = none ∧ snd.shards.lookup shardKey = none ∨
      ∃ core other, first.shards.lookup shardKey = some core ∧
        snd.shards.lookup shardKey = some other ∧ R core other := by
  have hs := rel.shards shardKey
  generalize first.shards.lookup shardKey = stored at hs ⊢
  generalize snd.shards.lookup shardKey = storedOther at hs ⊢
  cases hs with
  | none => exact .inl ⟨rfl, rfl⟩
  | some hb => exact .inr ⟨_, _, rfl, rfl, hb⟩

theorem Related.getOwnerToken (rel : Related R first snd) (clientID : ClientID) :
    first.getOwnerToken clientID = snd.getOwnerToken clientID := by
  rw [MemorySubCenter.getOwnerToken, rel.tokens, MemorySubCenter.getOwnerToken]

theorem Related.setOwnerToken (rel : Related R first snd) (cid : ClientID) (token : OwnerToken) :
    Related R (first.setOwnerToken cid token) (snd.setOwnerToken cid token) := by
  unfold MemorySubCenter.setOwnerToken
  split
  · exact rel
  · exact ⟨rel.shards, congrArg (Function.update · cid token) rel.tokens⟩

theorem Related.foldl {E A B : Type} {one : MemorySubCenter → E → MemorySubCenter × A}
    (answer : E → A → List B) (he : ∀ {first snd}, Related R first snd → ∀ e,
      Related R (one first e).1 (one snd e).1 ∧ (one first e).2 = (one snd e).2)
    (entries : List E) (rel : Related R first snd) (acks : List B) :
    let loop := fun center => entries.foldl (fun state e =>
      ((one state.1 e).1, state.2 ++ answer e (one state.1 e).2)) (center, acks)
    Related R (loop first).1 (loop snd).1 ∧ (loop first).2 = (loop snd).2 := by
  induction entries generalizing first snd acks with
  | nil => exact ⟨rel, rfl⟩
  | cons e rest ih =>
    obtain ⟨next, ha⟩ := he rel e
    have hl := ih next (acks ++ answer e (one first e).2)
    dsimp only at hl ⊢
    rw [foldl_cons, foldl_cons]
    dsimp only
    rw [← ha]
    exact hl

variable (relation : ShardRelation R)

include relation

section

variable (rel : Related R first snd)

include rel

theorem Related.shardOf (shardKey : String) :
    R (first.shardOf shardKey) (snd.shardOf shardKey) := by
  unfold MemorySubCenter.shardOf
  rcases rel.lookup shardKey with ⟨hm, lost⟩ | ⟨core, other, hf, got, hb⟩
  · rw [hm, lost]
    exact relation.empty
  · rw [hf, got]
    exact hb

theorem Related.createOne (cid : ClientID) (opt : SubOption) :
    Related R (first.createOne cid opt).1 (snd.createOne cid opt).1 ∧
      (first.createOne cid opt).2 = (snd.createOne cid opt).2 := by
  have hh := rel.shardOf relation (shardKeyFromTopic opt.topic)
  unfold MemorySubCenter.createOne
  split
  next => exact ⟨⟨rel_set rel.shards hh _, rel.tokens⟩, rfl⟩
  next valid =>
    exact ⟨⟨rel_set rel.shards (relation.store hh cid valid) _, rel.tokens⟩, rfl⟩

theorem Related.deleteOne (clientID : ClientID) (topic : String) :
    Related R (first.deleteOne clientID topic).1 (snd.deleteOne clientID topic).1 ∧
      (first.deleteOne clientID topic).2 = (snd.deleteOne clientID topic).2 := by
  have hh := rel.shardOf relation (shardKeyFromTopic topic)
  have ht := relation.topicsOf hh clientID
  have hr := rel_set rel.shards (relation.deleteSub hh clientID topic) (shardKeyFromTopic topic)
  unfold MemorySubCenter.deleteOne
  rcases rel.lookup (shardKeyFromTopic topic) with
    ⟨hm, lost⟩ | ⟨core, other, hf, got, hb⟩
  · rw [hm, lost]
    exact ⟨rel, rfl⟩
  · rw [hf, got]
    dsimp only
    split
    next option stored =>
      split
      next => exact ⟨⟨hr, rel.tokens⟩, rfl⟩
      next absent =>
        rw [← ht, stored] at absent
        cases absent
    next absent =>
      split
      next option stored =>
        rw [← ht, absent] at stored
        cases stored
      next => exact ⟨⟨hr, rel.tokens⟩, rfl⟩

theorem Related.createSub (clientID : ClientID)
    (ownerToken : OwnerToken) (topics : List SubOption) :
    Related R (first.createSub clientID ownerToken topics).1
        (snd.createSub clientID ownerToken topics).1 ∧
      (first.createSub clientID ownerToken topics).2 =
        (snd.createSub clientID ownerToken topics).2 := by
  unfold MemorySubCenter.createSub
  rw [rel.getOwnerToken]
  split
  · exact ⟨rel, rfl⟩
  · refine Related.foldl (fun option ack => [(option.topic, ack)])
      (fun rel option => rel.createOne relation clientID option) topics ?_ []
    split
    · exact rel.setOwnerToken clientID ownerToken
    · exact rel

theorem Related.deleteSub (clientID : ClientID) (ownerToken : OwnerToken) (topics : List String) :
    Related R (first.deleteSub clientID ownerToken topics).1
        (snd.deleteSub clientID ownerToken topics).1 ∧
      (first.deleteSub clientID ownerToken topics).2 =
        (snd.deleteSub clientID ownerToken topics).2 := by
  unfold MemorySubCenter.deleteSub
  rw [rel.getOwnerToken]
  split
  · exact ⟨rel, rfl⟩
  · exact Related.foldl (fun _ code => [code])
      (fun rel topic => rel.deleteOne relation clientID topic) topics rel []

theorem Related.deleteClient (clientID : ClientID) (ownerToken : OwnerToken) :
    Related R (first.deleteClient clientID ownerToken).1 (snd.deleteClient clientID ownerToken).1 ∧
      (first.deleteClient clientID ownerToken).2 = (snd.deleteClient clientID ownerToken).2 := by
  by_cases fenced : ownerToken ≠ "" ∧ first.getOwnerToken clientID ≠ ownerToken
  · have hh := fenced
    rw [rel.getOwnerToken] at hh
    rw [first.deleteClient_fenced fenced.1 fenced.2, snd.deleteClient_fenced hh.1 hh.2]
    exact ⟨rel, rfl⟩
  · have hu := fenced
    rw [rel.getOwnerToken] at hu
    obtain ⟨hs, ha⟩ := first.deleteClient_unfenced fenced
    obtain ⟨shards', told'⟩ := snd.deleteClient_unfenced hu
    refine ⟨⟨fun shardKey => ?_, ?_⟩, ha.trans told'.symm⟩
    · rw [hs, shards']
      rcases rel.lookup shardKey with
        ⟨hm, lost⟩ | ⟨core, other, hf, got, hb⟩
      · rw [hm, lost]
        exact .none
      · rw [hf, got]
        refine .some ?_
        split
        · exact hb
        · exact relation.deleteClient hb clientID
    · simp only [MemorySubCenter.deleteClient_clientOwnerTokens, rel.tokens]

end

end Related

namespace AgreedCenter

def responses (center : AgreedCenter) : List Operation → List Response
  | [] => []
  | operation :: rest =>
    (center.perform operation).2 :: (center.perform operation).1.responses rest

variable {R : SubCore → SubCore → Prop} (relation : ShardRelation R) {first snd : AgreedCenter}

include relation

theorem deleteTopic_related (rel : Related R first.toMemorySubCenter snd.toMemorySubCenter)
    (topic : String) :
    Related R (first.deleteTopic topic).toMemorySubCenter
      (snd.deleteTopic topic).toMemorySubCenter := by
  unfold AgreedCenter.deleteTopic
  rcases rel.lookup (shardKeyFromTopic topic) with
    ⟨hm, lost⟩ | ⟨core, other, hf, got, hb⟩
  · split
    next =>
      split
      next => exact rel
      next core hs => simp [lost] at hs
    next core hs => simp [hm] at hs
  · split
    next absent => simp [hf] at absent
    next hs =>
      obtain rfl := Option.some.inj (hf.symm.trans hs)
      split
      next absent => simp [got] at absent
      next put' =>
        obtain rfl := Option.some.inj (got.symm.trans put')
        exact ⟨rel_set rel.shards (relation.deleteTopic hb topic) _, rel.tokens⟩

theorem perform_related (rel : Related R first.toMemorySubCenter snd.toMemorySubCenter)
    (operation : Operation) :
    Related R (first.perform operation).1.toMemorySubCenter
        (snd.perform operation).1.toMemorySubCenter ∧
      (first.perform operation).2 = (snd.perform operation).2 := by
  cases operation with
  | createSub cid tok topics =>
    obtain ⟨next, ha⟩ := rel.createSub relation cid tok topics
    exact ⟨next, congrArg Response.created ha⟩
  | deleteSub cid tok topics =>
    obtain ⟨next, ha⟩ := rel.deleteSub relation cid tok topics
    exact ⟨next, congrArg Response.deleted ha⟩
  | deleteTopic topic => exact ⟨deleteTopic_related relation rel topic, rfl⟩
  | deleteClient cid tok =>
    obtain ⟨next, ha⟩ := rel.deleteClient relation cid tok
    exact ⟨next, congrArg Response.done ha⟩
  | setClientOwnerToken cid tok =>
    simp only [perform, setClientOwnerToken, MemorySubCenter.setClientOwnerToken]
    split
    · exact ⟨rel, rfl⟩
    · exact ⟨rel.setOwnerToken cid tok, rfl⟩

theorem after_related (operations : List Operation)
    (rel : Related R first.toMemorySubCenter snd.toMemorySubCenter) :
    Related R (first.after operations).toMemorySubCenter (snd.after operations).toMemorySubCenter ∧
      first.responses operations = snd.responses operations := by
  induction operations generalizing first snd with
  | nil => exact ⟨rel, rfl⟩
  | cons operation rest ih =>
    obtain ⟨next, ha⟩ := perform_related relation rel operation
    obtain ⟨hl, answers⟩ := ih next
    exact ⟨hl, congrArg₂ List.cons ha answers⟩

end AgreedCenter

/-! ## Alike shards -/

namespace SubCore

variable (core : SubCore)

theorem root_deleteSub (cid : ClientID) (topic : String) : (core.deleteSub cid topic).root =
      (core.root.modifyAt (fun client => client.erase cid) (splitTopicLevels topic)).getD
        core.root := by
  unfold deleteSub
  split
  next missing => exact (congrArg (Option.getD · core.root) missing).symm
  next hr => exact (congrArg (Option.getD · core.root) hr).symm

theorem root_deleteTopic (topic : String) : (core.deleteTopic topic).1.root =
      (core.root.modifyAt (fun _ => .empty) (splitTopicLevels topic)).getD core.root := by
  unfold deleteTopic
  split
  next missing => exact (congrArg (Option.getD · core.root) missing).symm
  next hc => exact (congrArg (Option.getD · core.root) hc).symm

theorem clients_deleteSub (cid : ClientID) (topic : String) : (core.deleteSub cid topic).clients =
      if (core.root.modifyAt (fun client => client.erase cid) (splitTopicLevels topic)).isSome
      then core.withoutTopic cid topic else core.clients := by
  unfold deleteSub
  split
  next missing => exact (if_neg (Option.not_isSome_iff_eq_none.mpr missing)).symm
  next hr => exact (if_pos (Option.isSome_of_eq_some hr)).symm

theorem clients_deleteTopic (topic : String) :
    (core.deleteTopic topic).1.clients = (core.forgetAll topic (core.clientsOf topic)).clients := by
  unfold deleteTopic
  split
  next missing =>
    rw [clientsOf_of_clear_eq_none missing]
    rfl
  next => rfl

variable {first snd : SubCore}

theorem withoutTopic_congr (hc : first.clients = snd.clients) (cid : ClientID)
    (topic : String) : first.withoutTopic cid topic = snd.withoutTopic cid topic := by
  rw [withoutTopic, hc, withoutTopic]

theorem forgetAll_congr (hc : first.clients = snd.clients) (topic : String)
    (clientIDs : List ClientID) :
    (first.forgetAll topic clientIDs).clients = (snd.forgetAll topic clientIDs).clients := by
  induction clientIDs generalizing first snd with
  | nil => exact hc
  | cons cid rest ih =>
    exact ih (withoutTopic_congr hc cid topic)

/-- The same subscriptions, and nil child maps at the same ones of the compared paths. -/
structure Alike (compared : List String → Prop) (first second : SubCore) : Prop where
  trie : first.root.restored = second.root.restored
  clients : first.clients = second.clients
  maps : ∀ path, compared path → (first.root.LacksMap path ↔ second.root.LacksMap path)

variable {compared : List String → Prop}

theorem Alike.modifyAt (ha : Alike compared first snd)
    (change : Assoc ClientID SubOption → Assoc ClientID SubOption) (path : List String) :
    let changed := (first.root.modifyAt change path).getD first.root
    let changedOther := (snd.root.modifyAt change path).getD snd.root
    changed.restored = changedOther.restored ∧
      (∀ path, compared path → (changed.LacksMap path ↔ changedOther.LacksMap path)) ∧
      (first.root.modifyAt change path).isSome = (snd.root.modifyAt change path).isSome := by
  have hm := modifyAt_alike ha.trie change path
  cases hf : first.root.modifyAt change path with
  | none =>
    rw [hf, Option.map_none, eq_comm, Option.map_eq_none_iff] at hm
    rw [hm]
    exact ⟨ha.trie, ha.maps, rfl⟩
  | some changed =>
    rw [hf, Option.map_some, eq_comm, Option.map_eq_some_iff] at hm
    obtain ⟨changedOther, got, he⟩ := hm
    rw [got]
    refine ⟨he.symm, fun path hl => ?_, rfl⟩
    exact (lacksMap_modifyAt hf path).trans
      ((ha.maps path hl).trans (lacksMap_modifyAt got path).symm)

theorem Alike.clientsOf (ha : Alike compared first snd) (topic : String) :
    first.clientsOf topic = snd.clientsOf topic := by
  rw [SubCore.clientsOf, ← clientsAt_restored, ha.trie, clientsAt_restored, SubCore.clientsOf]

theorem alike_shardRelation (compared : List String → Prop) : ShardRelation (Alike compared) where
  clients := Alike.clients
  empty := ⟨rfl, rfl, fun _ _ => Iff.rfl⟩
  store := by
    intro first snd ha cid opt _
    refine ⟨insert_alike ha.trie cid opt _, ?_, fun path hl => ?_⟩
    · change Assoc.set _ _ _ = Assoc.set _ _ _
      rw [SubCore.topicsOf, ha.clients, SubCore.topicsOf]
    · exact (lacksMap_insert cid opt _ path _).trans
        ((and_congr_left fun _ => ha.maps path hl).trans (lacksMap_insert cid opt _ path _).symm)
  deleteSub := by
    intro first snd ha cid topic
    obtain ⟨ht, hm, hr⟩ := ha.modifyAt (fun client => client.erase cid) (splitTopicLevels topic)
    refine ⟨?_, ?_, ?_⟩
    · rwa [root_deleteSub, root_deleteSub]
    · rw [clients_deleteSub, clients_deleteSub, hr, withoutTopic_congr ha.clients, ha.clients]
    · rwa [root_deleteSub, root_deleteSub]
  deleteTopic := by
    intro first snd ha topic
    obtain ⟨ht, hm, -⟩ := ha.modifyAt (fun _ => .empty) (splitTopicLevels topic)
    refine ⟨?_, ?_, ?_⟩
    · rwa [root_deleteTopic, root_deleteTopic]
    · rw [clients_deleteTopic, clients_deleteTopic, ha.clientsOf]
      exact forgetAll_congr ha.clients topic _
    · rwa [root_deleteTopic, root_deleteTopic]

/-! ## Shards that were built by the operations -/

/-- Every leaf carries a filter, and a client without topics is not listed. -/
structure Kept (core : SubCore) : Prop where
  marked : core.root.Marked
  named : core.root.topicSection = "/"
  stocked : ∀ clientID topics, core.clients.lookup clientID = some topics → topics.entries ≠ []

theorem stocked_withoutTopic {core : SubCore}
    (hs : ∀ cid topics, core.clients.lookup cid = some topics → topics.entries ≠ [])
    (cid : ClientID) (topic : String) :
    ∀ o topics, (core.withoutTopic cid topic).lookup o = some topics → topics.entries ≠ [] := by
  intro o topics hf
  by_cases he : o = cid
  · subst he
    unfold withoutTopic at hf
    split at hf
    next missing => exact hs o topics hf
    next old stored =>
      dsimp only at hf
      split at hf
      next => simp at hf
      next filled =>
        rw [lookup_set_self] at hf
        cases hf
        exact filled
  · rw [lookup_withoutTopic_of_ne core topic he] at hf
    exact hs o topics hf

theorem Kept.modifyAt {core : SubCore} (hk : core.Kept)
    (change : Assoc ClientID SubOption → Assoc ClientID SubOption) (path : List String) :
    ((core.root.modifyAt change path).getD core.root).Marked ∧
      ((core.root.modifyAt change path).getD core.root).topicSection = "/" := by
  cases hm : core.root.modifyAt change path with
  | none => exact ⟨hk.marked, hk.named⟩
  | some changed =>
    exact ⟨hk.marked.modifyAt hm, (topicSection_modifyAt hm).trans hk.named⟩

theorem empty_kept : empty.Kept where
  marked := .of_children (fun _ => by decide) fun level next hf => by
    simp [empty, TreeNode.child, TreeNode.childNode, TreeNode.childMap] at hf
  named := rfl
  stocked := by simp [empty]

variable {core : SubCore}

theorem Kept.store (hk : core.Kept) (cid : ClientID) {opt : SubOption}
    (hv : validateTopicFilter opt.topic = .ok ()) : (core.store cid opt).Kept where
  marked := by
    refine .insert (fun _ _ => hk.marked.child) cid ?_ fun level hm => ?_
    · rintro he
      rw [he] at hv
      cases hv
    · unfold splitTopicLevels at hm
      split at hm
      · cases hm
      · obtain ⟨part, split, rfl⟩ := mem_map.mp hm
        rw [String.toList_ofList]
        exact not_mem_of_mem_splitOn split
  named := (topicSection_insert _ _ _ _).trans hk.named
  stocked := by
    intro o topics hf
    by_cases he : o = cid
    · subst he
      rw [SubCore.store, lookup_set_self] at hf
      cases hf
      exact append_ne_nil_of_right_ne_nil _ (cons_ne_nil _ _)
    · rw [SubCore.store, lookup_set_of_ne _ _ he] at hf
      exact hk.stocked o topics hf

theorem Kept.deleteSub (hk : core.Kept) (cid : ClientID) (topic : String) :
    (core.deleteSub cid topic).Kept := by
  obtain ⟨hm, hn⟩ := hk.modifyAt (fun client => client.erase cid) (splitTopicLevels topic)
  refine ⟨?_, ?_, ?_⟩
  · rwa [root_deleteSub]
  · rwa [root_deleteSub]
  · rw [clients_deleteSub]
    split
    · exact stocked_withoutTopic hk.stocked cid topic
    · exact hk.stocked

theorem Kept.deleteTopic (kept : core.Kept) (topic : String) : (core.deleteTopic topic).1.Kept := by
  obtain ⟨hm, hn⟩ := kept.modifyAt (fun _ => .empty) (splitTopicLevels topic)
  refine ⟨?_, ?_, ?_⟩
  · rwa [root_deleteTopic]
  · rwa [root_deleteTopic]
  · rw [clients_deleteTopic]
    have hs := kept.stocked
    clear kept hm hn
    generalize core.clientsOf topic = clientIDs
    induction clientIDs generalizing core with
    | nil => exact hs
    | cons cid rest ih =>
      exact ih (stocked_withoutTopic hs cid topic)

theorem Kept.restored (hk : core.Kept) : core.restored.Kept where
  marked := hk.marked.restored
  named := core.root.topicSection_restored.trans hk.named
  stocked := hk.stocked

theorem kept_shardRelation : ShardRelation fun first snd => first = snd ∧ first.Kept where
  clients := fun hb => congrArg SubCore.clients hb.1
  empty := ⟨rfl, empty_kept⟩
  store := by
    rintro core _ ⟨rfl, hk⟩ cid opt hv
    exact ⟨rfl, hk.store cid hv⟩
  deleteSub := by
    rintro core _ ⟨rfl, hk⟩ cid topic
    exact ⟨rfl, hk.deleteSub cid topic⟩
  deleteTopic := by
    rintro core _ ⟨rfl, hk⟩ topic
    exact ⟨rfl, hk.deleteTopic topic⟩

end SubCore

/-! ## Snapshots -/

structure ClusterSub where
  cluster : Assoc String SubCore
  clientOwnerTokens : ClientID → OwnerToken

def MemorySubCenter.writeSnapshot (center : MemorySubCenter) : ClusterSub where
  cluster := center.shards
  clientOwnerTokens := center.clientOwnerTokens

/-- What is decoded from the encoded snapshot; an empty map comes back as nil. -/
def ClusterSub.decoded (snapshot : ClusterSub) : ClusterSub where
  cluster := snapshot.cluster.mapValues SubCore.restored
  clientOwnerTokens := snapshot.clientOwnerTokens

def addCount (shardKey : String) (index : ClientID → Assoc String Nat)
    (entry : ClientID × ClientSubTopic) : ClientID → Assoc String Nat :=
  if entry.2.entries.length = 0 then index
  else Function.update index entry.1 (Assoc.set (index entry.1) shardKey
    (indexCount index entry.1 shardKey + entry.2.entries.length))

def rebuildClientIndexFromShards (shards : Assoc String SubCore) : ClientID → Assoc String Nat :=
  shards.entries.foldl (fun index shard => shard.2.clients.entries.foldl (addCount shard.1) index)
    fun _ => .empty

theorem indexCount_addCount (shardKey key : String) (cid : ClientID)
    (index : ClientID → Assoc String Nat) (e : ClientID × ClientSubTopic) :
    indexCount (addCount shardKey index e) cid key = indexCount index cid key +
      if e.1 = cid then (if key = shardKey then e.2.entries.length else 0) else 0 := by
  unfold addCount
  split
  next none => simp [none]
  next =>
    by_cases cidEq : e.1 = cid
    · subst cidEq
      by_cases keyEq : key = shardKey <;> simp [indexCount, keyEq]
    · simp [indexCount, cidEq, Ne.symm cidEq]

theorem indexCount_rebuild (shards : Assoc String SubCore) (cid : ClientID) (key : String) :
    indexCount (rebuildClientIndexFromShards shards) cid key =
      (topicsIn shards key cid).entries.length := by
  have shard (index : ClientID → Assoc String Nat) (e : String × SubCore) :
      indexCount (e.2.clients.entries.foldl (addCount e.1) index) cid key =
        indexCount index cid key + if e.1 = key then (e.2.topicsOf cid).entries.length else 0 := by
    rw [KeyedTable.foldl_add_of_key (fun index => indexCount index cid key)
      (fun index client => indexCount_addCount e.1 key cid index client)]
    by_cases he : e.1 = key
    · subst he
      rw [SubCore.topicsOf, Assoc.lookup]
      cases KeyedTable.get e.2.clients cid <;> simp [KeyedTable.empty]
    · simp only [if_neg he, if_neg (Ne.symm he)]
      cases KeyedTable.get e.2.clients cid <;> rfl
  unfold rebuildClientIndexFromShards
  rw [KeyedTable.foldl_add_of_key (fun index => indexCount index cid key) shard,
    topicsIn, Assoc.lookup]
  cases KeyedTable.get shards key <;> simp [indexCount, KeyedTable.empty, Assoc.lookup,
    KeyedTable.get]

def recoverSnapshot (snapshot : ClusterSub) : MemorySubCenter where
  shards := snapshot.cluster
  index := rebuildClientIndexFromShards snapshot.cluster
  clientOwnerTokens := snapshot.clientOwnerTokens
  counted := fun clientID shardKey _ => indexCount_rebuild snapshot.cluster clientID shardKey

namespace AgreedCenter

def recovered (center : AgreedCenter) : AgreedCenter where
  toMemorySubCenter := recoverSnapshot center.writeSnapshot.decoded
  agree := by
    intro shardKey core found
    have stored : (center.shards.mapValues SubCore.restored).lookup shardKey = some core := found
    rw [lookup_mapValues] at stored
    obtain ⟨old, foundOld, rfl⟩ := Option.map_eq_some_iff.mp stored
    exact (center.agree shardKey old foundOld).restored

theorem lookup_recovered (center : AgreedCenter) (key : String) :
    center.recovered.shards.lookup key = (center.shards.lookup key).map SubCore.restored :=
  lookup_mapValues _ _ _

inductive Reachable : AgreedCenter → Prop where
  | empty : Reachable .empty
  | perform {center : AgreedCenter} (operation : Operation) :
      Reachable center → Reachable (center.perform operation).1
  | recovered {center : AgreedCenter} : Reachable center → Reachable center.recovered

theorem Reachable.related {center : AgreedCenter} (hr : center.Reachable) :
    Related (fun first snd => first = snd ∧ first.Kept) center.toMemorySubCenter
      center.toMemorySubCenter := by
  induction hr with
  | empty => exact ⟨fun shardKey => .none, rfl⟩
  | perform operation _ rel =>
    exact (perform_related SubCore.kept_shardRelation rel operation).1
  | @recovered center _ rel =>
    refine ⟨fun shardKey => ?_, rfl⟩
    rw [lookup_recovered]
    rcases rel.lookup shardKey with ⟨hm, -⟩ | ⟨core, other, hf, -, -, hk⟩
    · rw [hm]
      exact .none
    · rw [hf]
      exact .some ⟨rfl, hk.restored⟩

theorem Reachable.kept {center : AgreedCenter} (hr : center.Reachable) {shardKey : String}
    {core : SubCore} (hf : center.shards.lookup shardKey = some core) : core.Kept := by
  rcases hr.related.lookup shardKey with ⟨hm, -⟩ | ⟨stored, other, found, -, -, hk⟩
  · rw [hm] at hf
    cases hf
  · obtain rfl := Option.some.inj (found.symm.trans hf)
    exact hk

end AgreedCenter

/-! ## Reads of alike centers -/

theorem SubCore.Alike.restored_eq {compared : List String → Prop} {first snd : SubCore}
    (ha : SubCore.Alike compared first snd) : first.restored = snd.restored := by
  unfold SubCore.restored
  simp only [ha.trie, ha.clients]

namespace Related

variable {compared : List String → Prop} {first snd : MemorySubCenter}
  (rel : Related (SubCore.Alike compared) first snd)

include rel

theorem map_lookup {A : Type} (ask : SubCore → A)
    (he : ∀ core, ask (SubCore.restored core) = ask core) (shardKey : String) :
    (first.shards.lookup shardKey).map ask = (snd.shards.lookup shardKey).map ask := by
  rcases rel.lookup shardKey with ⟨hm, lost⟩ | ⟨core, other, hf, got, ha⟩
  · rw [hm, lost]
  · rw [hf, got, Option.map_some, Option.map_some, ← he core, ha.restored_eq, he]

theorem map_shardsAt {A : Type} (ask : SubCore → A)
    (he : ∀ core, ask (SubCore.restored core) = ask core) (keys : List String) :
    (first.shardsAt keys).map ask = (snd.shardsAt keys).map ask := by
  rw [MemorySubCenter.shardsAt, MemorySubCenter.shardsAt, map_filterMap, map_filterMap]
  exact filterMap_congr fun key _ => rel.map_lookup ask he key

theorem flatMap_shardsAt {A : Type} (ask : SubCore → List A)
    (he : ∀ core, ask (SubCore.restored core) = ask core) (keys : List String) :
    (first.shardsAt keys).flatMap ask = (snd.shardsAt keys).flatMap ask := by
  rw [flatMap_def, flatMap_def, rel.map_shardsAt ask he]

theorem foldl_shardsAt {A S : Type} (ask : SubCore → A)
    (he : ∀ core, ask (SubCore.restored core) = ask core) (visit : S → A → S)
    (keys : List String) (start : S) :
    (first.shardsAt keys).foldl (fun state core => visit state (ask core)) start =
      (snd.shardsAt keys).foldl (fun state core => visit state (ask core)) start := by
  have ha := congrArg (List.foldl visit start) (rel.map_shardsAt ask he keys)
  rwa [foldl_map, foldl_map] at ha

theorem mergeMatches {V : Type} (ask : SubCore → Assoc String V)
    (he : ∀ core, ask (SubCore.restored core) = ask core) (better : V → V → Bool)
    (topic : String) : first.mergeMatches ask better topic = snd.mergeMatches ask better topic :=
  rel.foldl_shardsAt ask he (fun resp hits => hits.entries.foldl _ resp) _ _

theorem getAllMatchClientV2 (topic : String) :
    first.getAllMatchClientV2 topic = snd.getAllMatchClientV2 topic := by
  have hs : first.aggregateShard topic = snd.aggregateShard topic := by
    funext aggregates shardKey
    have ha := rel.map_lookup (fun core => core.matchTopicClientV2 topic)
      (fun core => core.matchTopicClientV2_restored topic) shardKey
    unfold MemorySubCenter.aggregateShard
    rcases rel.lookup shardKey with
      ⟨hm, lost⟩ | ⟨core, other, hf, got, -⟩
    · rw [hm, lost]
    · rw [hf, got, Option.map_some, Option.map_some, Option.some.injEq] at ha
      rw [hf, got]
      exact congrArg (fun hits => hits.entries.foldl aggregateClient aggregates) ha
  unfold MemorySubCenter.getAllMatchClientV2
  rw [hs]

theorem getSubTree (order : List String) (topic : String) (maxDepth : Int) :
    first.getSubTree order topic maxDepth = snd.getSubTree order topic maxDepth := by
  unfold MemorySubCenter.getSubTree
  generalize (if topic = "" then "/" else topic) = topic
  generalize (if maxDepth ≤ 0 then 8 else maxDepth.toNat) = depth
  dsimp only
  split
  · exact rel.foldl_shardsAt (fun core => core.root.cloneNodeLimited depth)
      (fun core => core.root.cloneNodeLimited_restored depth) _ order _
  · have ha := rel.map_lookup
      (fun core => (core.root.descend (splitTopicLevels topic)).map
        (TreeNode.cloneNodeLimited depth))
      (fun core => by
        rw [SubCore.restored, descend_restored, Option.map_map]
        exact congrArg (Option.map · _) (funext (cloneNodeLimited_restored depth)))
      (shardKeyFromTopic topic)
    rcases rel.lookup (shardKeyFromTopic topic) with
      ⟨hm, lost⟩ | ⟨core, other, hf, got, -⟩
    · rw [hm, lost]
    · rw [hf, got, Option.map_some, Option.map_some, Option.some.injEq] at ha
      rw [hf, got]
      dsimp only
      cases hr : core.root.descend (splitTopicLevels topic) <;>
        cases reachedOther : other.root.descend (splitTopicLevels topic) <;>
        simp_all

theorem shardKeys_perm : first.shardKeys.Perm snd.shardKeys := by
  have hl (center : MemorySubCenter) (key : String) :
      key ∈ center.shardKeys ↔ (center.shards.lookup key).isSome := by
    rw [Option.isSome_iff_exists]
    simp [MemorySubCenter.shardKeys, Assoc.lookup_eq_some_iff]
  refine (perm_ext_iff_of_nodup first.shards.distinct snd.shards.distinct).mpr fun key => ?_
  refine (hl first key).trans (Iff.trans ?_ (hl snd key).symm)
  rcases rel.lookup key with ⟨hm, lost⟩ | ⟨core, other, hf, got, -⟩
  · rw [hm, lost]
  · simp [hf, got]

end Related

/-- The read is the search for the filters below a wildcard filter. -/
def Read.SeesMaps : Read → Prop
  | .allMatchTopicsForWildTopic _ => True
  | _ => False

namespace AgreedCenter

variable {first snd : AgreedCenter} {compared : List String → Prop}

theorem getAllMatchTopicsForWildTopic_alike
    (rel : Related (SubCore.Alike compared) first.toMemorySubCenter snd.toMemorySubCenter)
    (hs : ∀ path, Concrete path → compared path) (order : List String) (topic : String) :
    first.getAllMatchTopicsForWildTopic order topic =
      snd.getAllMatchTopicsForWildTopic order topic := by
  unfold MemorySubCenter.getAllMatchTopicsForWildTopic MemorySubCenter.shardsAt
  rw [flatMap_def, flatMap_def, map_filterMap, map_filterMap]
  refine congrArg List.flatten (filterMap_congr fun shardKey _ => ?_)
  rcases rel.lookup shardKey with ⟨hm, lost⟩ | ⟨core, other, hf, got, ha⟩
  · rw [hm, lost]
  · rw [hf, got]
    exact congrArg some (matchForWildcard_alike _ (first.agree _ core hf).distinct
      (snd.agree _ other got).distinct ha.trie
      fun path hc => ha.maps path (hs path hc))

/-- Alike centers give the same answers, unless the read sees child maps that were not compared. -/
theorem answers_alike
    (rel : Related (SubCore.Alike compared) first.toMemorySubCenter snd.toMemorySubCenter)
    (read : Read) (hs : read.SeesMaps → ∀ path, Concrete path → compared path) :
    first.answers read = snd.answers read := by
  have ha (order : List String) : first.answersIn order read = snd.answersIn order read := by
    cases read with
    | allMatchTopics topic =>
      refine congrArg (fun found => {Answer.topics found}) (?_ : _ = snd.getAllMatchTopics topic)
      exact rel.mergeMatches _ (fun core => core.matchTopic_restored topic) _ topic
    | allMatchClient topic =>
      refine congrArg (fun found => {Answer.clients found}) (?_ : _ = snd.getAllMatchClient topic)
      exact rel.mergeMatches _ (fun core => core.matchTopicClient_restored topic) _ topic
    | allMatchClientV2 topic =>
      simp only [MemorySubCenter.answersIn, rel.getAllMatchClientV2 topic]
    | allMatchTopicsForWildTopic topic =>
      simp only [MemorySubCenter.answersIn,
        getAllMatchTopicsForWildTopic_alike rel (hs trivial) order topic]
    | shareGroupMembers group =>
      simp only [MemorySubCenter.answersIn, MemorySubCenter.foundMembers]
      rw [rel.flatMap_shardsAt (fun core => core.shareMembers group) fun _ => rfl]
    | subTree topic maxDepth =>
      exact congrArg (fun root => {Answer.tree root}) (rel.getSubTree order topic maxDepth)
    | clientSubscriptions cid =>
      simp only [MemorySubCenter.answersIn, MemorySubCenter.clientSubscriptionsIn]
      rw [rel.flatMap_shardsAt (fun core => (core.topicsOf cid).entries) fun _ => rfl]
  have hk := rel.shardKeys_perm
  ext answer
  constructor
  · rintro ⟨order, hv, hi⟩
    exact ⟨order, hv.trans hk, ha order ▸ hi⟩
  · rintro ⟨order, hv, hi⟩
    exact ⟨order, hv.trans hk.symm, ha order ▸ hi⟩

/-! ## A recovered center -/

variable (center : AgreedCenter)

theorem recovered_alike
    (hu : ∀ key core path node, center.shards.lookup key = some core → compared path →
      core.root.descend path = some node → node.childMap ≠ some []) :
    Related (SubCore.Alike compared) center.toMemorySubCenter
      center.recovered.toMemorySubCenter := by
  refine ⟨fun key => ?_, rfl⟩
  rw [lookup_recovered]
  cases hf : center.shards.lookup key with
  | none => exact .none
  | some core =>
    refine .some ⟨core.root.restored_restored.symm, rfl, fun path hl => ?_⟩
    refine Iff.trans ?_ (lacksMap_restored path core.root).symm
    refine exists_congr fun node => and_congr_right fun hr => ?_
    have hk := hu key core path node hf hl hr
    unfold TreeNode.childNode
    cases hm : node.childMap with
    | none => simp
    | some kids =>
      rw [hm] at hk
      simpa using fun none => hk (congrArg some none)

/-- No leaf on a path without wildcards has an empty child map; a nil one is no harm. -/
def LeafMapsNil : Prop :=
  ∀ shardKey core path node, center.shards.lookup shardKey = some core → Concrete path →
    core.root.descend path = some node → node.childMap ≠ some []

theorem shardsAt_recovered (keys : List String) :
    center.recovered.shardsAt keys = (center.shardsAt keys).map SubCore.restored := by
  rw [MemorySubCenter.shardsAt, MemorySubCenter.shardsAt, map_filterMap]
  exact filterMap_congr fun key _ => center.lookup_recovered key

theorem shardKeys_recovered : center.recovered.shardKeys = center.shardKeys := by
  change ((center.shards.entries.map fun e => (e.1, e.2.restored)).map Prod.fst) = _
  rw [map_map]
  rfl

theorem length_getAllMatchTopicsForWildTopic (center : MemorySubCenter) (order : List String)
    (topic : String) :
    (center.getAllMatchTopicsForWildTopic order topic).length =
      ((center.shardsAt order).map fun core => (core.matchTopicForWildcard topic).length).sum :=
  length_flatMap

/-- The search for the filters below a leaf with an empty child map loses that leaf. -/
theorem Reachable.lost_answer {center : AgreedCenter} (reach : center.Reachable)
    {key : String} {core : SubCore} {path : List String} {node : TreeNode}
    (hf : center.shards.lookup key = some core) (hc : Concrete path)
    (hr : core.root.descend path = some node) (made : node.childMap = some []) :
    ∃ read, center.answers read ≠ center.recovered.answers read := by
  have hk := reach.kept hf
  obtain ⟨hu, last⟩ := hk.marked.along hr
  have hn : node.topic ≠ "" := (hk.marked path node hr).1 (by simp [TreeNode.childNode, made])
  have hp : node.topicSection ≠ "#" ∧ node.topicSection ≠ "+" := by
    rw [hk.named] at last
    rcases last with root | hm
    · rw [root]
      decide
    · exact ⟨fun he => hc.2 (he ▸ hm), fun he => hc.1 (he ▸ hm)⟩
  obtain ⟨topic, hl⟩ : ∃ topic, splitTopicLevels topic = path ++ ["#"] := by
    refine exists_splitTopicLevels (by simp) (fun he => ?_) fun level hm => ?_
    · have last := congrArg List.getLast? he
      simp at last
    rcases mem_append.mp hm with hi | last
    · exact hu level hi
    · rw [mem_singleton.mp last]
      decide
  refine ⟨.allMatchTopicsForWildTopic topic, fun he => ?_⟩
  -- An answer of the original that the recovered center also gives has two lengths.
  have hg : .filters (center.getAllMatchTopicsForWildTopic center.shardKeys topic) ∈
      center.recovered.answers (.allMatchTopicsForWildTopic topic) := by
    rw [← he]
    exact ⟨_, .refl _, _, .refl _, rfl⟩
  obtain ⟨order, hv, found, perm, heq⟩ := hg
  rw [shardKeys_recovered] at hv
  have hs : (center.shardsAt order).Perm (center.shardsAt center.shardKeys) := hv.filterMap _
  have hle := (Answer.filters.inj heq ▸ perm).length_eq
  rw [length_getAllMatchTopicsForWildTopic, length_getAllMatchTopicsForWildTopic,
    shardsAt_recovered, map_map, (hs.map _).sum_eq] at hle
  refine absurd hle (ne_of_gt (sum_lt_sum _ _ (fun o _ => ?_) ⟨core, ?_, ?_⟩))
  · exact o.root.length_matchForWildcard_restored _
  · exact mem_filterMap.mpr ⟨key, mem_map.mpr ⟨(key, core), lookup_eq_some_iff.mp hf, rfl⟩, hf⟩
  · simp only [Function.comp_apply, SubCore.matchTopicForWildcard, hl]
    exact matchForWildcard_lost hc hr made hn hp

end AgreedCenter

/-- A recovered center answers every operation and every read for ever as the original does, if and
only if no leaf on a path without wildcards had an empty child map. -/
theorem recovered_answers_iff (center : AgreedCenter) (reachable : center.Reachable) :
    (∀ operations, center.responses operations = center.recovered.responses operations ∧
      ∀ read, (center.after operations).answers read =
        (center.recovered.after operations).answers read) ↔ center.LeafMapsNil := by
  constructor
  · intro ha shardKey core path node hf hc hr hm
    obtain ⟨read, hd⟩ := reachable.lost_answer hf hc hr hm
    exact hd ((ha []).2 read)
  · intro hle operations
    have alike := AgreedCenter.recovered_alike center hle
    obtain ⟨hl, ha⟩ := AgreedCenter.after_related (SubCore.alike_shardRelation Concrete)
      operations alike
    exact ⟨ha, fun read => AgreedCenter.answers_alike hl read fun _ _ hc => hc⟩

def hashCenter : AgreedCenter :=
  .after .empty [.createSub "alice" "t1" [{ topic := "#", qos := 1 }]]

theorem hashCenter_leafMapsNil : hashCenter.LeafMapsNil := by
  intro key core path node hf hc hr
  have hm := lookup_eq_some_iff.mp hf
  obtain ⟨-, rfl⟩ := Prod.mk.inj (mem_singleton.mp hm)
  cases path with
  | nil =>
    cases hr
    exact fun he => nomatch Option.some.inj he
  | cons level rest =>
    have hh : "#" ≠ level := fun he => hc.2 (by simp [he])
    rw [TreeNode.descend, Option.bind_eq_some_iff] at hr
    obtain ⟨next, next', -⟩ := hr
    change List.lookup level [("#", _)] = some next at next'
    rw [lookup_cons, if_neg hh.symm] at next'
    cases next'

theorem recovered_answers_hash : hashCenter.LeafMapsNil ∧
      (hashCenter.after [.createSub "bob" "" [{ topic := "a/b", qos := 2 }]]).answers
          (.allMatchTopicsForWildTopic "a/#") =
        (hashCenter.recovered.after [.createSub "bob" "" [{ topic := "a/b", qos := 2 }]]).answers
          (.allMatchTopicsForWildTopic "a/#") :=
  ⟨hashCenter_leafMapsNil,
    ((recovered_answers_iff hashCenter (.perform _ .empty)).mpr hashCenter_leafMapsNil _).2 _⟩

/-- The filter `a` is found below `a/#` until the center is recovered. -/
theorem leaf_lost_after_recovery :
    ∃ center : AgreedCenter, center.Reachable ∧ center.shardKeys = ["a"] ∧
      center.getAllMatchTopicsForWildTopic ["a"] "a/#" = ["a"] ∧
      center.recovered.getAllMatchTopicsForWildTopic ["a"] "a/#" = [] :=
  ⟨_, .perform (.createSub "alice" "t1" [{ topic := "a", qos := 1 }]) .empty, by decide +kernel,
    by decide +kernel, by decide +kernel⟩

end SkyTree.Subscription
