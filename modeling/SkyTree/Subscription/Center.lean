import SkyTree.Subscription.Shard

/-!
# The subscription center

Subscriptions are spread over shards by the first non-empty topic level. A
reverse index counts, per client, the topics it has in each shard, and a token per
client fences writes by connections that lost the session. Deletion of a client
visits only the shards the index names, so the center carries the proof that the
index counts what the shards hold.
-/

namespace SkyTree.Subscription

open Foundation KeyedTable SubCore

/-- The first non-empty level of the topic. -/
def shardKeyFromTopic (topic : String) : String :=
  match (splitTopicLevels topic).find? (fun level => level ≠ "") with
  | some level => level
  | none => "_default"

/-- What a client stores in one shard; a missing shard is empty. -/
def topicsIn (shards : Assoc String SubCore) (shardKey : String) (clientID : ClientID) :
    ClientSubTopic :=
  ((shards.lookup shardKey).getD SubCore.empty).topicsOf clientID

def indexCount (index : ClientID → Assoc String Nat) (clientID : ClientID) (shardKey : String) :
    Nat :=
  ((index clientID).lookup shardKey).getD 0

structure MemorySubCenter where
  shards : Assoc String SubCore
  index : ClientID → Assoc String Nat
  clientOwnerTokens : ClientID → OwnerToken
  counted : ∀ clientID shardKey, clientID ≠ "" →
    indexCount index clientID shardKey = (topicsIn shards shardKey clientID).entries.length

namespace MemorySubCenter

def empty : MemorySubCenter where
  shards := .empty
  index := fun _ => .empty
  clientOwnerTokens := fun _ => ""
  counted := by
    intro clientID shardKey _
    rfl

variable (center : MemorySubCenter) (clientID : ClientID)

def getOwnerToken : OwnerToken :=
  if clientID = "" then "" else center.clientOwnerTokens clientID

/-- An empty token clears the binding. -/
def setOwnerToken (token : OwnerToken) :
    MemorySubCenter :=
  if clientID = "" then center
  else { center with clientOwnerTokens := Function.update center.clientOwnerTokens clientID token }

def setClientOwnerToken (token : OwnerToken) :
    MemorySubCenter × Bool :=
  if clientID = "" then (center, false) else (center.setOwnerToken clientID token, true)

def getClientSubscriptions : List SubOption :=
  if clientID = "" then []
  else center.shards.entries.flatMap fun shard => (shard.2.topicsOf clientID).entries

end MemorySubCenter

def incCount (index : ClientID → Assoc String Nat) (clientID : ClientID) (shardKey : String) :
    ClientID → Assoc String Nat :=
  if clientID = "" then index
  else Function.update index clientID
    (Assoc.set (index clientID) shardKey (indexCount index clientID shardKey + 1))

def decCount (index : ClientID → Assoc String Nat) (clientID : ClientID) (shardKey : String) :
    ClientID → Assoc String Nat :=
  if clientID = "" then index
  else if indexCount index clientID shardKey ≤ 1 then
    Function.update index clientID ((index clientID).erase shardKey)
  else Function.update index clientID
    (Assoc.set (index clientID) shardKey (indexCount index clientID shardKey - 1))

section Index

variable (index : ClientID → Assoc String Nat) {cid other : ClientID} {shardKey key : String}

theorem indexCount_incCount_self (hn : cid ≠ "") : indexCount (incCount index cid shardKey)
    cid shardKey =
      indexCount index cid shardKey + 1 := by
  simp [incCount, hn, indexCount]

theorem indexCount_incCount_of_ne (hne : other ≠ cid ∨ key ≠ shardKey) :
    indexCount (incCount index cid shardKey) other key = indexCount index other key := by
  unfold incCount
  split
  · rfl
  · by_cases he : other = cid
    · subst he
      have hk : key ≠ shardKey := hne.resolve_left (fun h => h rfl)
      simp [indexCount, hk]
    · simp [indexCount, he]

theorem indexCount_decCount_self (hn : cid ≠ "") : indexCount (decCount index cid shardKey)
    cid shardKey =
      indexCount index cid shardKey - 1 := by
  unfold decCount
  rw [if_neg hn]
  split
  next low =>
    have hz : indexCount index cid shardKey - 1 = 0 := by omega
    rw [hz]
    simp [indexCount]
  next => simp [indexCount]

theorem indexCount_decCount_of_ne (hne : other ≠ cid ∨ key ≠ shardKey) :
    indexCount (decCount index cid shardKey) other key = indexCount index other key := by
  unfold decCount
  split
  · rfl
  · by_cases he : other = cid
    · subst he
      have hk : key ≠ shardKey := hne.resolve_left (fun h => h rfl)
      split <;> simp [indexCount, hk]
    · split <;> simp [indexCount, he]

end Index

section Shards

variable (shards : Assoc String SubCore) (core : SubCore) {cid other : ClientID}
  {shardKey key : String}

@[simp] theorem topicsIn_set_self :
    topicsIn (Assoc.set shards shardKey core) shardKey cid = core.topicsOf cid := by
  simp [topicsIn]

@[simp] theorem topicsIn_set_of_ne (hne : key ≠ shardKey) :
    topicsIn (Assoc.set shards shardKey core) key cid = topicsIn shards key cid := by
  simp [topicsIn, hne]

end Shards

namespace MemorySubCenter

variable (center : MemorySubCenter)

def shardOf (shardKey : String) : SubCore := (center.shards.lookup shardKey).getD SubCore.empty

def withShard (shardKey : String) : MemorySubCenter where
  shards := Assoc.set center.shards shardKey (center.shardOf shardKey)
  index := center.index
  clientOwnerTokens := center.clientOwnerTokens
  counted := by
    intro clientID key named
    rw [center.counted clientID key named]
    by_cases same : key = shardKey
    · subst same
      simp [shardOf, topicsIn]
    · simp [same]

variable (clientID : ClientID)

/-- Store one validated subscription; only a new topic is counted. -/
def storeSub (option : SubOption) : MemorySubCenter where
  shards := Assoc.set center.shards (shardKeyFromTopic option.topic)
    ((center.shardOf (shardKeyFromTopic option.topic)).store clientID option)
  index :=
    match ((center.shardOf (shardKeyFromTopic option.topic)).topicsOf clientID).get
        option.topic with
    | some _ => center.index
    | none => incCount center.index clientID (shardKeyFromTopic option.topic)
  clientOwnerTokens := center.clientOwnerTokens
  counted := by
    intro other key named
    have before := center.counted other key named
    by_cases hit : other = clientID ∧ key = shardKeyFromTopic option.topic
    · obtain ⟨rfl, rfl⟩ := hit
      rw [topicsIn_set_self, topicsOf_store_self]
      split
      next found => rw [length_put_of_get _ found]; exact before
      next absent =>
        rw [indexCount_incCount_self _ named, length_put_of_absent _ absent, before]
        rfl
    · have different : other ≠ clientID ∨ key ≠ shardKeyFromTopic option.topic :=
        not_and_or.mp hit
      have sameTopics : topicsIn (Assoc.set center.shards (shardKeyFromTopic option.topic)
          ((center.shardOf (shardKeyFromTopic option.topic)).store clientID option)) key other =
          topicsIn center.shards key other := by
        by_cases same : key = shardKeyFromTopic option.topic
        · subst same
          rw [topicsIn_set_self,
            topicsOf_store_of_ne _ _ (different.resolve_right (fun h => h rfl))]
          rfl
        · simp [same]
      rw [sameTopics, ← before]
      split
      · rfl
      · exact indexCount_incCount_of_ne _ different

/-- One topic of a SUBSCRIBE; the acknowledged code is `-1` for an invalid filter. -/
def createOne (option : SubOption) : MemorySubCenter × Int :=
  match validateTopicFilter option.topic with
  | .error _ => (center.withShard (shardKeyFromTopic option.topic), -1)
  | .ok () => (center.storeSub clientID option, option.qos)

def removeSub (topic : String) (option : SubOption)
    (stored : ((center.shardOf (shardKeyFromTopic topic)).topicsOf clientID).get topic =
      some option) : MemorySubCenter where
  shards := Assoc.set center.shards (shardKeyFromTopic topic)
    ((center.shardOf (shardKeyFromTopic topic)).deleteSub clientID topic)
  index := decCount center.index clientID (shardKeyFromTopic topic)
  clientOwnerTokens := center.clientOwnerTokens
  counted := by
    intro other key named
    have before := center.counted other key named
    obtain ⟨member, rfl⟩ := get_eq_some_iff.mp stored
    by_cases hit : other = clientID ∧ key = shardKeyFromTopic option.topic
    · obtain ⟨rfl, rfl⟩ := hit
      have shorter := length_erase_add_of_get _ stored
      rw [topicsIn_set_self, topicsOf_deleteSub_self _ member,
        indexCount_decCount_self _ named, before]
      change ((center.shardOf _).topicsOf other).entries.length - 1 = _
      omega
    · have different : other ≠ clientID ∨ key ≠ shardKeyFromTopic option.topic :=
        not_and_or.mp hit
      rw [indexCount_decCount_of_ne _ different, before]
      by_cases same : key = shardKeyFromTopic option.topic
      · subst same
        rw [topicsIn_set_self,
          topicsOf_deleteSub_of_ne _ _ (different.resolve_right (fun h => h rfl))]
        rfl
      · simp [same]

/-- Unsubscribing from a topic that is not stored still walks the trie. -/
def removeAbsent (topic : String)
    (absent : ((center.shardOf (shardKeyFromTopic topic)).topicsOf clientID).get topic = none) :
    MemorySubCenter where
  shards := Assoc.set center.shards (shardKeyFromTopic topic)
    ((center.shardOf (shardKeyFromTopic topic)).deleteSub clientID topic)
  index := center.index
  clientOwnerTokens := center.clientOwnerTokens
  counted := by
    intro other key named
    rw [center.counted other key named]
    by_cases same : key = shardKeyFromTopic topic
    · subst same
      rw [topicsIn_set_self]
      by_cases client : other = clientID
      · subst client
        rw [entries_deleteSub_of_absent _ absent]
        rfl
      · rw [topicsOf_deleteSub_of_ne _ _ client]
        rfl
    · simp [same]

/-- One topic of an UNSUBSCRIBE with its reason code. -/
def deleteOne (topic : String) : MemorySubCenter × Int :=
  match center.shards.lookup (shardKeyFromTopic topic) with
  | none => (center, 0x11)
  | some _ =>
    match found : ((center.shardOf (shardKeyFromTopic topic)).topicsOf clientID).get topic with
    | some option => (center.removeSub clientID topic option found, 0)
    | none => (center.removeAbsent clientID topic found, 0x11)

/-- `CreateSub`: the first write binds the token, a foreign token is answered `-1`. -/
def createSub (ownerToken : OwnerToken) (topics : List SubOption) :
    MemorySubCenter × List (String × Int) :=
  if ownerToken ≠ "" ∧ center.getOwnerToken clientID ≠ "" ∧
      center.getOwnerToken clientID ≠ ownerToken then
    (center, (topics.filter fun option => option.topic ≠ "").map fun option => (option.topic, -1))
  else
    let bound := if ownerToken ≠ "" ∧ center.getOwnerToken clientID = "" then
      center.setOwnerToken clientID ownerToken else center
    topics.foldl (fun state option =>
      let (next, ack) := state.1.createOne clientID option
      (next, state.2 ++ [(option.topic, ack)])) (bound, [])

/-- `DeleteSub`: a token that is not the stored one is answered `-1`. -/
def deleteSub (ownerToken : OwnerToken) (topics : List String) :
    MemorySubCenter × List Int :=
  if ownerToken ≠ "" ∧ center.getOwnerToken clientID ≠ ownerToken then
    (center, topics.map fun _ => -1)
  else
    topics.foldl (fun state topic =>
      let (next, code) := state.1.deleteOne clientID topic
      (next, state.2 ++ [code])) (center, [])

theorem createSub_preserves {cen : MemorySubCenter} {P : MemorySubCenter → Prop}
    {cid : ClientID} {tok : OwnerToken} (topics : List SubOption)
    (hs : P cen)
    (bound : cen.getOwnerToken cid = "" → P (cen.setOwnerToken cid tok))
    (one : ∀ current opt, P current → P (current.createOne cid opt).1) :
    P (cen.createSub cid tok topics).1 := by
  have hl (state : MemorySubCenter × List (String × Int)) (hh : P state.1) :
      P (topics.foldl (fun state opt =>
        let (next, ack) := state.1.createOne cid opt
        (next, state.2 ++ [(opt.topic, ack)])) state).1 := by
    induction topics generalizing state with
    | nil => exact hh
    | cons opt rest ih => exact ih _ (one _ opt hh)
  unfold createSub
  split
  · exact hs
  · apply hl
    split
    next unbound => exact bound unbound.2
    next => exact hs

theorem deleteSub_preserves {cen : MemorySubCenter} {P : MemorySubCenter → Prop}
    {cid : ClientID} (tok : OwnerToken) (topics : List String) (hs : P cen)
    (one : ∀ current topic, P current → P (current.deleteOne cid topic).1) :
    P (cen.deleteSub cid tok topics).1 := by
  have hl (state : MemorySubCenter × List Int) (hh : P state.1) :
      P (topics.foldl (fun state topic =>
        let (next, code) := state.1.deleteOne cid topic
        (next, state.2 ++ [code])) state).1 := by
    induction topics generalizing state with
    | nil => exact hh
    | cons topic rest ih => exact ih _ (one _ topic hh)
  unfold deleteSub
  split
  · exact hs
  · exact hl _ hs

@[simp] theorem createOne_clientOwnerTokens (cid : ClientID) (opt : SubOption) :
    (center.createOne cid opt).1.clientOwnerTokens = center.clientOwnerTokens := by
  unfold createOne
  split <;> rfl

@[simp] theorem deleteOne_clientOwnerTokens (cid : ClientID) (topic : String) :
    (center.deleteOne cid topic).1.clientOwnerTokens = center.clientOwnerTokens := by
  unfold deleteOne
  split
  · rfl
  · split <;> rfl

end MemorySubCenter

def deleteFromShard (clientID : ClientID) (shards : Assoc String SubCore) (shardKey : String) :
    Assoc String SubCore :=
  match shards.lookup shardKey with
  | none => shards
  | some core => Assoc.set shards shardKey (core.deleteClient clientID)

variable {cid : ClientID}

theorem topicsIn_deleteFromShard_of_ne (shards : Assoc String SubCore) {other : ClientID}
    (shardKey key : String) (hne : other ≠ cid) :
    topicsIn (deleteFromShard cid shards shardKey) key other = topicsIn shards key other := by
  unfold deleteFromShard
  split
  next => rfl
  next core hf =>
    by_cases he : key = shardKey
    · subst he
      rw [topicsIn_set_self, topicsOf_deleteClient_of_ne _ hne]
      simp [topicsIn, hf]
    · simp [he]

theorem topicsIn_deleteFromShard_self (shards : Assoc String SubCore) (cid : ClientID)
    (shardKey key : String) :
    topicsIn (deleteFromShard cid shards shardKey) key cid =
      if key = shardKey then .empty else topicsIn shards key cid := by
  unfold deleteFromShard
  split
  next hm =>
    by_cases he : key = shardKey
    · subst he
      simp [topicsIn, hm]
    · simp [he]
  next core hf =>
    by_cases he : key = shardKey
    · subst he
      simp
    · simp [he]

def deleteFromShards (clientID : ClientID) (shardKeys : List String)
    (shards : Assoc String SubCore) : Assoc String SubCore :=
  shardKeys.foldl (deleteFromShard clientID) shards

theorem topicsIn_deleteFromShards_of_ne (keys : List String) (shards : Assoc String SubCore)
    {other : ClientID} (key : String) (hne : other ≠ cid) :
    topicsIn (deleteFromShards cid keys shards) key other = topicsIn shards key other := by
  induction keys generalizing shards with
  | nil => rfl
  | cons head rest ih =>
    exact (ih _).trans (topicsIn_deleteFromShard_of_ne _ _ _ hne)

theorem topicsIn_deleteFromShards_self (keys : List String) (shards : Assoc String SubCore)
    (cid : ClientID) (key : String) :
    topicsIn (deleteFromShards cid keys shards) key cid =
      if key ∈ keys then .empty else topicsIn shards key cid := by
  induction keys generalizing shards with
  | nil => simp [deleteFromShards]
  | cons head rest ih =>
    refine (ih _).trans ?_
    rw [topicsIn_deleteFromShard_self]
    by_cases he : key = head <;> by_cases hm : key ∈ rest <;> simp [he, hm]

theorem lookup_deleteFromShard (shards : Assoc String SubCore) (cid : ClientID)
    (shardKey key : String) :
    (deleteFromShard cid shards shardKey).lookup key =
      if key = shardKey then (shards.lookup key).map fun core => core.deleteClient cid
      else shards.lookup key := by
  unfold deleteFromShard
  split
  next hm =>
    by_cases he : key = shardKey
    · subst he
      simp [hm]
    · rw [if_neg he]
  next core hf =>
    by_cases he : key = shardKey
    · subst he
      simp [hf]
    · simp [he]

theorem lookup_deleteFromShards {keys : List String} (hd : keys.Nodup)
    (shards : Assoc String SubCore) (key : String) :
    (deleteFromShards cid keys shards).lookup key =
      if key ∈ keys then (shards.lookup key).map fun core => core.deleteClient cid
      else shards.lookup key := by
  induction keys generalizing shards with
  | nil => rfl
  | cons head rest ih =>
    rw [List.nodup_cons] at hd
    refine (ih hd.2 _).trans ?_
    rw [lookup_deleteFromShard]
    by_cases he : key = head
    · subst he
      simp [hd.1]
    · simp [he]

namespace MemorySubCenter

variable (center : MemorySubCenter)

def shardsForClient (clientID : ClientID) : List String :=
  if clientID = "" then [] else (center.index clientID).entries.map Prod.fst

variable {cid : ClientID}

theorem topicsIn_eq_empty_of_not_mem {key : String} (hn : cid ≠ "")
    (hu : key ∉ center.shardsForClient cid) :
    topicsIn center.shards key cid = .empty := by
  have ha : (center.index cid).get key = none := by
    refine get_eq_none_iff.mpr fun pair hm he => hu ?_
    rw [shardsForClient, if_neg hn]
    exact List.mem_map.mpr ⟨pair, hm, he⟩
  have hc := center.counted cid key hn
  simp only [indexCount, Assoc.lookup, ha, Option.map_none, Option.getD_none] at hc
  exact eq_empty_iff.mpr (List.eq_nil_of_length_eq_zero hc.symm)

def forceDeleteClient (clientID : ClientID) : MemorySubCenter where
  shards := deleteFromShards clientID (center.shardsForClient clientID) center.shards
  index := if clientID = "" then center.index
    else Function.update center.index clientID .empty
  clientOwnerTokens := center.clientOwnerTokens
  counted := by
    intro other key named
    by_cases same : other = clientID
    · subst same
      rw [if_neg named, topicsIn_deleteFromShards_self]
      by_cases member : key ∈ center.shardsForClient other
      · simp [member, indexCount, KeyedTable.empty, Assoc.lookup, KeyedTable.get]
      · rw [if_neg member, center.topicsIn_eq_empty_of_not_mem named member]
        simp [indexCount, KeyedTable.empty, Assoc.lookup, KeyedTable.get]
    · rw [topicsIn_deleteFromShards_of_ne _ _ _ same, ← center.counted other key named]
      split <;> simp [indexCount, same]

/-- `DeleteClient`: an empty token deletes whoever owns the client. -/
def deleteClient (clientID : ClientID) (ownerToken : OwnerToken) : MemorySubCenter × Bool :=
  if ownerToken ≠ "" ∧ center.getOwnerToken clientID ≠ ownerToken then (center, false)
  else if center.shardsForClient clientID = [] then (center, true)
  else (center.forceDeleteClient clientID, true)

def subscriptions (clientID : ClientID) : String → ClientSubTopic :=
  fun shardKey => topicsIn center.shards shardKey clientID

theorem deleteClient_subscriptions_of_ne {other : ClientID} (tok : OwnerToken) (hne : other ≠ cid) :
    (center.deleteClient cid tok).1.subscriptions other = center.subscriptions other := by
  unfold deleteClient
  split
  · rfl
  · split
    · rfl
    · funext key
      exact topicsIn_deleteFromShards_of_ne _ _ key hne

variable {tok : OwnerToken}

/-- A deletion that is not fenced leaves the client without subscriptions. -/
theorem deleteClient_subscriptions_self (hn : cid ≠ "")
    (ha : tok = "" ∨ center.getOwnerToken cid = tok) (key : String) :
    (center.deleteClient cid tok).1.subscriptions cid key = .empty := by
  have hu : ¬(tok ≠ "" ∧ center.getOwnerToken cid ≠ tok) := by
    rintro ⟨ht, hf⟩
    exact ha.elim ht hf
  rw [deleteClient, if_neg hu]
  split
  next none =>
    exact center.topicsIn_eq_empty_of_not_mem hn (by simp [none])
  next =>
    change topicsIn (deleteFromShards _ _ _) key cid = _
    rw [topicsIn_deleteFromShards_self]
    by_cases hm : key ∈ center.shardsForClient cid
    · simp [hm]
    · rw [if_neg hm, center.topicsIn_eq_empty_of_not_mem hn hm]

theorem lookup_forceDeleteClient (hn : cid ≠ "") (key : String) :
    (center.forceDeleteClient cid).shards.lookup key =
      (center.shards.lookup key).map fun core => core.deleteClient cid := by
  have hl : (center.shardsForClient cid).Nodup := by
    rw [shardsForClient, if_neg hn]
    exact (center.index cid).distinct
  refine (lookup_deleteFromShards hl center.shards key).trans ?_
  split
  · rfl
  next unlisted =>
    have bare := center.topicsIn_eq_empty_of_not_mem hn unlisted
    cases hf : center.shards.lookup key with
    | none => rfl
    | some core =>
      rw [topicsIn, hf] at bare
      exact congrArg some (deleteClient_of_empty bare).symm

theorem deleteClient_unfenced (hu : ¬(tok ≠ "" ∧ center.getOwnerToken cid ≠ tok)) :
    (∀ key, (center.deleteClient cid tok).1.shards.lookup key =
      (center.shards.lookup key).map fun core =>
        if cid = "" then core else core.deleteClient cid) ∧
      (center.deleteClient cid tok).2 = true := by
  rw [deleteClient, if_neg hu]
  by_cases hn : cid = ""
  · have out : center.shardsForClient cid = [] := if_pos hn
    rw [if_pos out]
    exact ⟨fun key => by simp [hn], rfl⟩
  · simp only [if_neg hn]
    split
    next out =>
      refine ⟨fun key => ?_, rfl⟩
      rw [← center.lookup_forceDeleteClient hn]
      simp [forceDeleteClient, out, deleteFromShards]
    next => exact ⟨fun key => center.lookup_forceDeleteClient hn key, rfl⟩

theorem deleteClient_fenced (ht : tok ≠ "") (hf : center.getOwnerToken cid ≠ tok) :
    center.deleteClient cid tok = (center, false) :=
  if_pos ⟨ht, hf⟩

@[simp] theorem deleteClient_clientOwnerTokens (cid : ClientID) (tok : OwnerToken) :
    (center.deleteClient cid tok).1.clientOwnerTokens = center.clientOwnerTokens := by
  unfold deleteClient
  split
  · rfl
  · split <;> rfl

end MemorySubCenter

end SkyTree.Subscription
