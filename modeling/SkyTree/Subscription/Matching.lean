import SkyTree.Foundation.Grouping
import SkyTree.Subscription.Operations
import SkyTree.Subscription.Walk

/-!
# Matching a publish against the subscription center

`GetAllMatchClientV2` visits the shards that can hold a matching filter, walks each
of their tries and groups what it finds by client. On the states the center can
reach, the answer is compared with the flat matcher applied to every stored
subscription.
-/

namespace SkyTree.Subscription

open Foundation List Assoc

structure MatchedSubscription where
  topicFilter : String
  qos : Int
  retainAsPublished : Bool
  noLocal : Bool
  retainHandling : Int
  subscriptionIdentifier : Int
  deriving DecidableEq, Repr

structure ClientMatch where
  clientID : ClientID
  maxQoS : Int
  matched : List MatchedSubscription
  deriving DecidableEq, Repr

def matchedSubscriptionFromOption (option : SubOption) : MatchedSubscription where
  topicFilter := option.topic
  qos := option.qos
  retainAsPublished := option.retainAsPublished
  noLocal := option.noLocal
  retainHandling := option.retainHandling
  subscriptionIdentifier := option.subscriptionIdentifier

def appendMatchedClient (result : Assoc ClientID (List MatchedSubscription))
    (entry : ClientID × SubOption) : Assoc ClientID (List MatchedSubscription) :=
  Assoc.set result entry.1
    ((result.lookup entry.1).getD [] ++ [matchedSubscriptionFromOption entry.2])

def appendMatchedNodeClients (result : Assoc ClientID (List MatchedSubscription))
    (node : TreeNode) : Assoc ClientID (List MatchedSubscription) :=
  node.client.entries.foldl appendMatchedClient result

def SubCore.matchTopicClientV2 (core : SubCore) (topic : String) :
    Assoc ClientID (List MatchedSubscription) :=
  (core.walkMatchingTopicNodes topic).foldl appendMatchedNodeClients .empty

def shardKeysForMatch (publishTopic : String) : List String :=
  let key := shardKeyFromTopic publishTopic
  if key = "+" ∨ key = "#" then [key]
  else if key = "$share" then ["$share", "+", "#"]
  else [key, "+", "#", "$share"]

/-- What is collected for one client over the shards. -/
structure ClientAggregate where
  maxQoS : Int := 0
  matched : List MatchedSubscription := []

def ClientAggregate.add (aggregate : ClientAggregate) (subscription : MatchedSubscription) :
    ClientAggregate where
  maxQoS := if subscription.qos > aggregate.maxQoS then subscription.qos else aggregate.maxQoS
  matched := aggregate.matched ++ [subscription]

def aggregateClient (aggregates : Assoc ClientID ClientAggregate)
    (entry : ClientID × List MatchedSubscription) : Assoc ClientID ClientAggregate :=
  if entry.2 = [] then aggregates
  else Assoc.set aggregates entry.1
    (entry.2.foldl ClientAggregate.add ((aggregates.lookup entry.1).getD {}))

namespace MemorySubCenter

variable (center : MemorySubCenter)

def aggregateShard (topic : String) (aggregates : Assoc ClientID ClientAggregate)
    (shardKey : String) : Assoc ClientID ClientAggregate :=
  match center.shards.lookup shardKey with
  | none => aggregates
  | some core => (core.matchTopicClientV2 topic).entries.foldl aggregateClient aggregates

def getAllMatchClientV2 (topic : String) : List ClientMatch :=
  ((shardKeysForMatch topic).foldl (center.aggregateShard topic) .empty).entries.map fun entry =>
    { clientID := entry.1, maxQoS := entry.2.maxQoS, matched := entry.2.matched }

end MemorySubCenter

def returned (clientMatches : List ClientMatch) : List (ClientID × MatchedSubscription) :=
  clientMatches.flatMap fun client => client.matched.map fun subscription =>
    (client.clientID, subscription)

def clientAndFilter (hit : ClientID × MatchedSubscription) : ClientID × String :=
  (hit.1, hit.2.topicFilter)

/-! ## Grouping keeps every hit -/

def TreeNode.hits (node : TreeNode) : List (ClientID × MatchedSubscription) :=
  node.client.entries.map fun entry => (entry.1, matchedSubscriptionFromOption entry.2)

theorem pairs_appendMatchedClient (res : Assoc ClientID (List MatchedSubscription))
    (e : ClientID × SubOption) :
    (Assoc.pairs id (appendMatchedClient res e)).Perm
      (Assoc.pairs id res ++ [(e.1, matchedSubscriptionFromOption e.2)]) := by
  have he : (res.lookup e.1).getD [] ++ [matchedSubscriptionFromOption e.2] =
      (res.lookup e.1).elim [] id ++ [matchedSubscriptionFromOption e.2] := by
    cases res.lookup e.1 <;> rfl
  exact pairs_set_perm id res he

theorem pairs_appendMatchedNodeClients (res : Assoc ClientID (List MatchedSubscription))
    (node : TreeNode) :
    (Assoc.pairs id (appendMatchedNodeClients res node)).Perm
      (Assoc.pairs id res ++ node.hits) := by
  rw [TreeNode.hits, map_eq_flatMap]
  exact pairs_foldl_perm id _ pairs_appendMatchedClient _ res

def SubCore.hits (core : SubCore) (topic : String) : List (ClientID × MatchedSubscription) :=
  (core.walkMatchingTopicNodes topic).flatMap TreeNode.hits

theorem ClientAggregate.matched_foldl_add (subscriptions : List MatchedSubscription)
    (aggregate : ClientAggregate) :
    (subscriptions.foldl add aggregate).matched = aggregate.matched ++ subscriptions := by
  induction subscriptions generalizing aggregate with
  | nil => simp
  | cons sub rest ih => simp [ih, add]

theorem pairs_aggregateClient (aggs : Assoc ClientID ClientAggregate)
    (e : ClientID × List MatchedSubscription) :
    (Assoc.pairs ClientAggregate.matched (aggregateClient aggs e)).Perm
      (Assoc.pairs ClientAggregate.matched aggs ++ e.2.map fun sub => (e.1, sub)) := by
  unfold aggregateClient
  split
  next nothing => simp [nothing]
  next =>
    refine pairs_set_perm _ aggs ?_
    rw [ClientAggregate.matched_foldl_add]
    cases aggs.lookup e.1 <;> rfl

namespace MemorySubCenter

variable (center : MemorySubCenter)

def hitsIn (topic shardKey : String) : List (ClientID × MatchedSubscription) :=
  (center.shards.lookup shardKey).elim [] fun core => core.hits topic

theorem pairs_aggregateShard (topic : String) (aggs : Assoc ClientID ClientAggregate)
    (shardKey : String) :
    (Assoc.pairs ClientAggregate.matched (center.aggregateShard topic aggs shardKey)).Perm
      (Assoc.pairs ClientAggregate.matched aggs ++ center.hitsIn topic shardKey) := by
  unfold aggregateShard hitsIn
  split
  next missing => simp [missing]
  next core found =>
    simp only [found, Option.elim_some]
    refine (pairs_foldl_perm _ _ pairs_aggregateClient _ aggs).trans ?_
    exact (pairs_foldl_perm id TreeNode.hits pairs_appendMatchedNodeClients _ .empty).append_left _

theorem returned_perm (topic : String) : (returned (center.getAllMatchClientV2 topic)).Perm
      ((shardKeysForMatch topic).flatMap (center.hitsIn topic)) := by
  have hg := pairs_foldl_perm ClientAggregate.matched (center.hitsIn topic)
    (center.pairs_aggregateShard topic) (shardKeysForMatch topic) .empty
  refine (List.Perm.of_eq ?_).trans hg
  simp [returned, getAllMatchClientV2, Assoc.pairs, flatMap_map]

end MemorySubCenter

/-! ## The hits of a shard -/

namespace SubCore

variable {core : SubCore} {shardKey topic : String}

def hitsAt (core : SubCore) (paths : List (List String)) : List (ClientID × MatchedSubscription) :=
  paths.flatMap fun path => (core.root.clientsAt path).entries.map fun entry =>
    (entry.1, matchedSubscriptionFromOption entry.2)

theorem hits_eq_hitsAt (ha : core.Agrees shardKey) (hv : validatePublishTopic topic = .ok ()) :
    core.hits topic = core.hitsAt (core.walkedPaths topic) := by
  rw [hits, core.walkMatchingTopicNodes_eq_filterMap ha.distinct hv, hitsAt]
  generalize core.walkedPaths topic = paths
  induction paths with
  | nil => rfl
  | cons path rest ih =>
    rw [flatMap_cons, ← ih]
    cases hf : TreeNode.descend path core.root with
    | none => simp [hf, TreeNode.clientsAt, KeyedTable.empty]
    | some node => simp [hf, TreeNode.clientsAt, TreeNode.hits]

variable {cid : ClientID}

theorem mem_clientsAt_iff (ha : core.Agrees shardKey) {path : List String} {opt : SubOption} :
    (cid, opt) ∈ (core.root.clientsAt path).entries ↔
      opt ∈ core.topicsOf cid ∧ splitTopicLevels opt.topic = path :=
  lookup_eq_some_iff.symm.trans (ha.found path cid opt)

variable {sub : MatchedSubscription}

theorem mem_hitsAt_iff (ha : core.Agrees shardKey) {paths : List (List String)} :
    (cid, sub) ∈ core.hitsAt paths ↔
      ∃ option ∈ core.topicsOf cid, splitTopicLevels option.topic ∈ paths ∧
        sub = matchedSubscriptionFromOption option := by
  simp only [hitsAt, mem_flatMap, mem_map, Prod.mk.injEq]
  constructor
  · rintro ⟨path, hw, ⟨client, option⟩, hs, rfl, rfl⟩
    obtain ⟨hm, rfl⟩ := (mem_clientsAt_iff ha).mp hs
    exact ⟨option, hm, hw, rfl⟩
  · rintro ⟨option, hm, hw, rfl⟩
    exact ⟨_, hw, (cid, option), (mem_clientsAt_iff ha).mpr ⟨hm, rfl⟩, rfl, rfl⟩

theorem mem_hits_iff (ha : core.Agrees shardKey) (hv : validatePublishTopic topic = .ok ()) :
    (cid, sub) ∈ core.hits topic ↔
      ∃ option ∈ core.topicsOf cid, splitTopicLevels option.topic ∈ core.walkedPaths topic ∧
        sub = matchedSubscriptionFromOption option := by
  rw [hits_eq_hitsAt ha hv]
  exact mem_hitsAt_iff ha

theorem nodup_hitsAt (ha : core.Agrees shardKey) {paths : List (List String)}
    (ho : paths.Nodup) : ((core.hitsAt paths).map clientAndFilter).Nodup := by
  rw [hitsAt, map_flatMap, nodup_flatMap]
  constructor
  · -- one node: its clients are distinct
    intro path _
    rw [map_map]
    refine List.Nodup.of_map Prod.fst ?_
    rw [map_map]
    exact (core.root.clientsAt path).distinct
  · -- two nodes: the filter of a hit is its path
    refine ho.imp fun hne => ?_
    rw [Function.onFun_apply, disjoint_left]
    intro key inFst inSnd
    simp only [map_map, mem_map] at inFst inSnd
    obtain ⟨⟨client, opt⟩, hs, rfl⟩ := inFst
    obtain ⟨⟨o, second⟩, putSnd, he⟩ := inSnd
    have topicEq : second.topic = opt.topic := congrArg Prod.snd he
    have pathFirst := ((mem_clientsAt_iff ha).mp hs).2
    have pathSecond := ((mem_clientsAt_iff ha).mp putSnd).2
    exact hne (pathFirst.symm.trans ((congrArg _ topicEq.symm).trans pathSecond))

theorem mem_shareGroups (hd : core.root.Distinct) {group : String} {inner : List String}
    (hp : core.root.HasPath ("$share" :: group :: inner)) : group ∈ core.shareGroups := by
  obtain ⟨shareRoot, hs, next, hf, -⟩ := hp
  rw [shareGroups, hs]
  have hm := (TreeNode.mem_childNode_iff (hd.child hs).names).mpr hf
  exact mem_map.mpr ⟨(group, next), hm, rfl⟩

theorem mem_walkedPaths_iff (ha : core.Agrees shardKey) (hn : topic ≠ "")
    (plain : hasWildcard topic = false) {opt : SubOption}
    (hs : opt ∈ core.topicsOf cid) :
    splitTopicLevels opt.topic ∈ core.walkedPaths topic ↔
      matchTopicFilter opt.topic topic = true ∨ isShareTopic opt.topic = true ∧
          matchTopicFilter (parseShareTopic opt.topic).2 topic = true := by
  have hc := concrete_of_hasWildcard plain
  have hf : splitTopicLevels topic ≠ [] := fun bare => hn (splitTopicLevels_eq_nil.mp bare)
  have named : opt.topic ≠ "" := by
    intro bare
    have hv := ha.valid cid opt hs
    simp [validateTopicFilter, bare] at hv
  rw [matchTopicFilter_shared_iff hn, matchTopicFilter_iff, walkedPaths, mem_append,
    mem_candidates_iff hc hf, or_comm]
  simp only [named, hn, ne_eq, not_false_eq_true, true_and]
  refine or_congr_right ?_
  simp only [mem_flatMap, mem_map]
  constructor
  · rintro ⟨group, -, inner, hw, hl⟩
    exact ⟨group, inner, hl.symm, (mem_candidates_iff hc hf).mp hw⟩
  · rintro ⟨group, inner, hl, hm⟩
    have hp := hasPath_of_mem_topicsOf hs
    rw [hl] at hp
    exact ⟨group, mem_shareGroups ha.distinct hp, inner, (mem_candidates_iff hc hf).mpr hm, hl.symm⟩

/-- Outside `$share` the two parts of the walk do not meet. -/
theorem nodup_walkedPaths (hd : core.root.Distinct) (plain : hasWildcard topic = false)
    (hu : (splitTopicLevels topic).head? ≠ some "$share") :
    (core.walkedPaths topic).Nodup := by
  have hc := concrete_of_hasWildcard plain
  have ho := nodup_candidates hc (allowRootWildcardsForPublish (splitTopicLevels topic))
  have hg : core.shareGroups.Nodup := by
    unfold shareGroups
    cases share' : core.root.child "$share" with
    | none => exact nodup_nil
    | some shareRoot => exact (hd.child share').names
  refine List.Nodup.append (nodup_flatMap.mpr ⟨?_, ?_⟩) ho ?_
  · intro group _
    exact ho.map fun first second he => by simpa using he
  · refine hg.imp fun hne => ?_
    rw [Function.onFun_apply, disjoint_left]
    rintro path inFst inSnd
    obtain ⟨first, -, rfl⟩ := mem_map.mp inFst
    obtain ⟨second, -, he⟩ := mem_map.mp inSnd
    have grpEq := (List.cons.inj (List.cons.inj he).2).1
    exact hne grpEq.symm
  · rw [disjoint_left]
    intro path hh inCands
    obtain ⟨group, -, hs⟩ := mem_flatMap.mp hh
    obtain ⟨inner, -, rfl⟩ := mem_map.mp hs
    exact hu (head_of_mem_candidates hc inCands (by decide) (by decide))

/-- Ordinary filters are hit once even below `$share`: the walk over the groups only meets
shared ones. -/
theorem nodup_ordinary_hits (ha : core.Agrees shardKey) (hv : validatePublishTopic topic = .ok ()) :
    (((core.hits topic).filter fun hit => !isShareTopic hit.2.topicFilter).map
      clientAndFilter).Nodup := by
  have hc := concrete_of_hasWildcard (validatePublishTopic_eq_ok.mp hv).2
  rw [hits_eq_hitsAt ha hv, walkedPaths, hitsAt, flatMap_append, filter_append]
  change ((((core.hitsAt _).filter _) ++ ((core.hitsAt _).filter _)).map _).Nodup
  have hg : ((core.hitsAt (core.shareGroups.flatMap fun group =>
      (candidates (allowRootWildcardsForPublish (splitTopicLevels topic))
        (splitTopicLevels topic)).map fun path => "$share" :: group :: path)).filter
      fun hit => !isShareTopic hit.2.topicFilter) = [] := by
    refine filter_eq_nil_iff.mpr ?_
    rintro ⟨cid, sub⟩ hit
    obtain ⟨option, -, hw, rfl⟩ := (mem_hitsAt_iff ha).mp hit
    obtain ⟨group, -, inGroup⟩ := mem_flatMap.mp hw
    obtain ⟨inner, -, hl⟩ := mem_map.mp inGroup
    simp [matchedSubscriptionFromOption, isShareTopic_of_levels hl.symm]
  rw [hg, nil_append]
  exact (nodup_hitsAt ha (nodup_candidates hc _)).sublist (filter_sublist.map _)

end SubCore

/-! ## The shards of a topic -/

def shardKeyOfLevels (levels : List String) : String :=
  (levels.find? fun level => level ≠ "").getD "_default"

theorem shardKeyFromTopic_eq (topic : String) :
    shardKeyFromTopic topic = shardKeyOfLevels (splitTopicLevels topic) := by
  unfold shardKeyFromTopic shardKeyOfLevels
  cases (splitTopicLevels topic).find? fun level => level ≠ "" <;> rfl

theorem shardKeyOfLevels_of_matchLevels {path levels : List String}
    (hm : matchLevels path levels = true) :
    shardKeyOfLevels path = shardKeyOfLevels levels ∨ shardKeyOfLevels path = "+" ∨
      shardKeyOfLevels path = "#" := by
  induction path generalizing levels with
  | nil =>
    obtain rfl : levels = [] := by simpa [matchLevels] using hm
    exact .inl rfl
  | cons first rest ih =>
    by_cases hh : first = "#"
    · exact .inr (.inr (by simp [shardKeyOfLevels, hh]))
    · cases levels with
      | nil => simp [matchLevels, hh] at hm
      | cons name names =>
        by_cases hp : first = "+"
        · exact .inr (.inl (by simp [shardKeyOfLevels, hp]))
        · obtain ⟨rfl, hb⟩ : first = name ∧ matchLevels rest names = true := by
            simpa [matchLevels, hh, hp] using hm
          by_cases he : first = ""
          · simpa [shardKeyOfLevels, he] using ih hb
          · exact .inl (by simp [shardKeyOfLevels, he])

section ShardKeys

variable {topic : String} (plain : hasWildcard topic = false)

include plain

theorem shardKeyFromTopic_concrete :
    shardKeyFromTopic topic ≠ "+" ∧ shardKeyFromTopic topic ≠ "#" := by
  have hc := concrete_of_hasWildcard plain
  unfold shardKeyFromTopic
  cases hf : (splitTopicLevels topic).find? fun level => level ≠ "" with
  | none => decide
  | some level =>
    have hm := mem_of_find?_eq_some hf
    exact ⟨fun hp => hc.1 (hp ▸ hm), fun hh => hc.2 (hh ▸ hm)⟩

theorem mem_shardKeysForMatch {shardKey : String} : shardKey ∈ shardKeysForMatch topic ↔
      shardKey = shardKeyFromTopic topic ∨ shardKey = "+" ∨ shardKey = "#" ∨
        shardKey = "$share" := by
  have hc := shardKeyFromTopic_concrete plain
  unfold shardKeysForMatch
  by_cases hs : shardKeyFromTopic topic = "$share"
  · simp [hs]
    tauto
  · simp [hc, hs]

theorem nodup_shardKeysForMatch : (shardKeysForMatch topic).Nodup := by
  have hc := shardKeyFromTopic_concrete plain
  unfold shardKeysForMatch
  by_cases hs : shardKeyFromTopic topic = "$share"
  · simp [hs]
  · simp [hc, hs]

theorem mem_shardKeysForMatch_of_match {filter : String}
    (hm : matchTopicFilter filter topic = true) :
    shardKeyFromTopic filter ∈ shardKeysForMatch topic := by
  obtain ⟨-, -, levels⟩ := matchTopicFilter_iff.mp hm
  have hk := shardKeyOfLevels_of_matchLevels (Bool.and_eq_true_iff.mp levels).2
  rw [← shardKeyFromTopic_eq, ← shardKeyFromTopic_eq] at hk
  rw [mem_shardKeysForMatch plain]
  tauto

theorem mem_shardKeysForMatch_of_isShareTopic {filter : String}
    (hs : isShareTopic filter = true) : shardKeyFromTopic filter ∈ shardKeysForMatch topic := by
  have key : shardKeyFromTopic filter = "$share" := by
    obtain ⟨rest, hl⟩ := exists_levels_of_isShareTopic hs
    rw [shardKeyFromTopic_eq, hl]
    rfl
  rw [mem_shardKeysForMatch plain, key]
  simp

end ShardKeys

/-! ## The answer of the center -/

namespace MemorySubCenter

variable {center : MemorySubCenter}

def Stores (center : MemorySubCenter) (clientID : ClientID) (option : SubOption) : Prop :=
  ∃ shardKey, option ∈ center.subscriptions clientID shardKey

variable {cid : ClientID}

theorem Stores.shard (ha : ShardsAgree center.shards) {opt : SubOption}
    (stores : center.Stores cid opt) :
    ∃ core, center.shards.lookup (shardKeyFromTopic opt.topic) = some core ∧
      opt ∈ core.topicsOf cid := by
  obtain ⟨shardKey, hm⟩ := stores
  have hs : opt ∈ ((center.shards.lookup shardKey).getD SubCore.empty).topicsOf cid := hm
  cases hf : center.shards.lookup shardKey with
  | none => simp [hf] at hs
  | some core =>
    rw [hf] at hs
    exact ⟨core, (ha shardKey core hf).keyed cid opt hs ▸ hf, hs⟩

/-- What the walks of the center accept. -/
def Walked (filter topic : String) : Prop :=
  matchTopicFilter filter topic = true ∨
    isShareTopic filter = true ∧ matchTopicFilter (parseShareTopic filter).2 topic = true

variable {topic : String}

section

variable (agree : ShardsAgree center.shards)

include agree

theorem mem_returned_iff (hn : topic ≠ "")
    (plain : hasWildcard topic = false) {sub : MatchedSubscription} :
    (cid, sub) ∈ returned (center.getAllMatchClientV2 topic) ↔
      ∃ option, center.Stores cid option ∧ Walked option.topic topic ∧
        sub = matchedSubscriptionFromOption option := by
  have hv := validatePublishTopic_eq_ok.mpr ⟨hn, plain⟩
  rw [(center.returned_perm topic).mem_iff, mem_flatMap]
  constructor
  · rintro ⟨shardKey, -, hit⟩
    cases hf : center.shards.lookup shardKey with
    | none => simp [hitsIn, hf] at hit
    | some core =>
      rw [hitsIn, hf] at hit
      have ha := agree shardKey core hf
      obtain ⟨option, hm, hw, rfl⟩ := (SubCore.mem_hits_iff ha hv).mp hit
      exact ⟨option, ⟨shardKey, by rwa [subscriptions, topicsIn, hf]⟩,
        (SubCore.mem_walkedPaths_iff ha hn plain hm).mp hw, rfl⟩
  · rintro ⟨option, stores, hw, rfl⟩
    obtain ⟨core, hf, hm⟩ := stores.shard agree
    have ha := agree _ core hf
    refine ⟨shardKeyFromTopic option.topic, ?_, ?_⟩
    · rcases hw with matched | ⟨hs, -⟩
      · exact mem_shardKeysForMatch_of_match plain matched
      · exact mem_shardKeysForMatch_of_isShareTopic plain hs
    · rw [hitsIn, hf]
      exact (SubCore.mem_hits_iff ha hv).mpr
        ⟨option, hm, (SubCore.mem_walkedPaths_iff ha hn plain hm).mpr hw, rfl⟩

theorem nodup_filter_returned (hv : validatePublishTopic topic = .ok ())
    (p : ClientID × MatchedSubscription → Bool)
    (ho : ∀ (shardKey : String) (core : SubCore), core.Agrees shardKey →
      (((core.hits topic).filter p).map clientAndFilter).Nodup) :
    (((returned (center.getAllMatchClientV2 topic)).filter p).map clientAndFilter).Nodup := by
  have plain := (validatePublishTopic_eq_ok.mp hv).2
  rw [(((center.returned_perm topic).filter p).map _).nodup_iff, filter_flatMap,
    map_flatMap, nodup_flatMap]
  constructor
  · intro shardKey _
    cases hf : center.shards.lookup shardKey with
    | none => simp [hitsIn, hf]
    | some core =>
      rw [hitsIn, hf]
      exact ho shardKey core (agree shardKey core hf)
  · -- a filter is stored in the shard of its own key only
    have keyed {shardKey : String} {key : ClientID × String}
        (hm : key ∈ ((center.hitsIn topic shardKey).filter p).map clientAndFilter) :
        shardKeyFromTopic key.2 = shardKey := by
      obtain ⟨⟨cid, sub⟩, hk, rfl⟩ := mem_map.mp hm
      have hit := mem_of_mem_filter hk
      cases hf : center.shards.lookup shardKey with
      | none => simp [hitsIn, hf] at hit
      | some core =>
        rw [hitsIn, hf] at hit
        have ha := agree shardKey core hf
        obtain ⟨option, hs, -, rfl⟩ := (SubCore.mem_hits_iff ha hv).mp hit
        exact ha.keyed cid option hs
    refine (nodup_shardKeysForMatch plain).imp fun hne => ?_
    rw [Function.onFun_apply, disjoint_left]
    exact fun key inFst inSnd => hne ((keyed inFst).symm.trans (keyed inSnd))

theorem nodup_returned (hn : topic ≠ "")
    (plain : hasWildcard topic = false) (hu : (splitTopicLevels topic).head? ≠ some "$share") :
    ((returned (center.getAllMatchClientV2 topic)).map clientAndFilter).Nodup := by
  have hv := validatePublishTopic_eq_ok.mpr ⟨hn, plain⟩
  have hf := nodup_filter_returned agree hv (fun _ => true) fun shardKey core ha => by
    rw [filter_true, SubCore.hits_eq_hitsAt ha hv]
    exact SubCore.nodup_hitsAt ha (SubCore.nodup_walkedPaths ha.distinct plain hu)
  rwa [filter_true] at hf

/-- An ordinary subscription is never returned twice, on any topic. -/
theorem nodup_ordinary_returned (topic : String) :
    (((returned (center.getAllMatchClientV2 topic)).filter
      fun hit => !isShareTopic hit.2.topicFilter).map clientAndFilter).Nodup := by
  cases hv : validatePublishTopic topic with
  | ok => exact nodup_filter_returned agree hv _ fun _ _ ha =>
    SubCore.nodup_ordinary_hits ha hv
  | error msg =>
    have hn (core : SubCore) : core.hits topic = [] := by
      simp [SubCore.hits, SubCore.walkMatchingTopicNodes, hv]
    have none : (shardKeysForMatch topic).flatMap (center.hitsIn topic) = [] := by
      refine flatMap_eq_nil_iff.mpr fun shardKey _ => ?_
      unfold hitsIn
      cases center.shards.lookup shardKey <;> simp [hn]
    have answer := center.returned_perm topic
    rw [none] at answer
    simp [answer.eq_nil]

end

/-- Outside `$share` the walks accept a filter through the part that `MatchTopicFilter` judges. -/
theorem walked_iff_of_unshared {filter : String}
    (hu : (splitTopicLevels topic).head? ≠ some "$share") :
    Walked filter topic ↔ matchTopicFilter (parseShareTopic filter).2 topic = true := by
  unfold Walked
  by_cases hs : isShareTopic filter = true
  · have hl : matchTopicFilter filter topic ≠ true :=
      fun hm => hu (head_of_matchTopicFilter_shared hs hm)
    simp [hs, hl]
  · simp [hs, parseShareTopic]

/-- On a topic outside `$share` the center answers as the flat matcher does, without repetition. -/
theorem getAllMatchClientV2_exact (reachable : center.Reachable) {topic : String}
    (named : topic ≠ "") (plain : hasWildcard topic = false)
    (unshared : (splitTopicLevels topic).head? ≠ some "$share") :
    ((returned (center.getAllMatchClientV2 topic)).map clientAndFilter).Nodup ∧ ∀ clientID filter,
        (clientID, filter) ∈ (returned (center.getAllMatchClientV2 topic)).map clientAndFilter ↔
          (∃ option, center.Stores clientID option ∧ option.topic = filter) ∧
            matchTopicFilter (parseShareTopic filter).2 topic = true := by
  have ha := reachable.agree
  refine ⟨nodup_returned ha named plain unshared, fun clientID filter => ?_⟩
  constructor
  · intro hm
    obtain ⟨⟨client, subscription⟩, hit, he⟩ := mem_map.mp hm
    obtain ⟨option, hs, hw, rfl⟩ := (mem_returned_iff ha named plain).mp hit
    obtain ⟨rfl, rfl⟩ := Prod.mk.inj he
    exact ⟨⟨option, hs, rfl⟩, (walked_iff_of_unshared unshared).mp hw⟩
  · rintro ⟨⟨option, hs, rfl⟩, matched⟩
    have hw := (walked_iff_of_unshared unshared).mpr matched
    exact mem_map.mpr ⟨(clientID, matchedSubscriptionFromOption option),
      (mem_returned_iff ha named plain).mpr ⟨option, hs, hw, rfl⟩, rfl⟩

def aliceAndBob : List Operation :=
  [.createSub "alice" "" [{ topic := "a/+", qos := 1 }],
    .createSub "bob" "" [{ topic := "$share/g/a/#", qos := 2 }, { topic := "b", qos := 0 }]]

theorem getAllMatchClientV2_exact_two_clients : ∃ center : MemorySubCenter, center.Reachable ∧
      (returned (center.getAllMatchClientV2 "a/x")).map clientAndFilter =
        [("alice", "a/+"), ("bob", "$share/g/a/#")] ∧
      ((returned (center.getAllMatchClientV2 "a/x")).map clientAndFilter).Nodup := by
  have he : ∃ center : MemorySubCenter, center.Reachable ∧
      (returned (center.getAllMatchClientV2 "a/x")).map clientAndFilter =
        [("alice", "a/+"), ("bob", "$share/g/a/#")] := ⟨_, ⟨aliceAndBob, rfl⟩, by decide⟩
  obtain ⟨center, hr, ha⟩ := he
  exact ⟨center, hr, ha, (getAllMatchClientV2_exact hr (by decide) (by decide) (by decide)).1⟩

end MemorySubCenter

/-! ## Topics below `$share` -/

structure PublishRefusal where
  reasonCode : Nat
  reasonString : String
  deriving DecidableEq, Repr

def disconnectForTopicNameInvalid (reason : String) : PublishRefusal where
  reasonCode := 0x90
  reasonString := "topic name invalid: " ++ reason

def disconnectForProtocolError (reason : String) : PublishRefusal where
  reasonCode := 0x82
  reasonString := "protocol error: " ++ reason

/-- The checks of an incoming PUBLISH; the list holds its Subscription Identifier properties. -/
def validatePublishEnvelope (subscriptionIdentifiers : List Nat) (topic : String) :
    Except PublishRefusal Unit :=
  if topic = "" then
    .error (disconnectForTopicNameInvalid "empty topic name without a valid topic alias")
  else if hasWildcard topic then
    .error (disconnectForTopicNameInvalid "topic name contains wildcard")
  else if subscriptionIdentifiers ≠ [] then
    .error (disconnectForProtocolError "Subscription Identifier is not allowed in client PUBLISH")
  else .ok ()

namespace MemorySubCenter

variable {center : MemorySubCenter}

def MatchedInside (center : MemorySubCenter) (topic : String) : Prop :=
  ∀ clientID option, center.Stores clientID option → isShareTopic option.topic = true →
    matchTopicFilter option.topic topic = true →
      matchTopicFilter (parseShareTopic option.topic).2 topic = true

/-- Shared subscriptions are returned through their inner filter exactly when no stored one
matches by its text alone. The checks of a publish accept topics below `$share`, where the
ordinary walk enters the same nodes as the walk over the groups. -/
theorem shared_returned_by_inner_filter_iff (reachable : center.Reachable)
    {subscriptionIdentifiers : List Nat} {topic : String}
    (accepted : validatePublishEnvelope subscriptionIdentifiers topic = .ok ()) :
    (∀ clientID subscription,
        (clientID, subscription) ∈ returned (center.getAllMatchClientV2 topic) →
        isShareTopic subscription.topicFilter = true →
        matchTopicFilter (parseShareTopic subscription.topicFilter).2 topic = true) ↔
      center.MatchedInside topic := by
  have ha := reachable.agree
  unfold validatePublishEnvelope at accepted
  split_ifs at accepted with hn wild
  have plain : hasWildcard topic = false := by simpa using wild
  constructor
  · intro hi clientID option stores hs hl
    exact hi clientID (matchedSubscriptionFromOption option)
      ((mem_returned_iff ha hn plain).mpr ⟨option, stores, .inl hl, rfl⟩) hs
  · intro hi clientID subscription hit hs
    obtain ⟨option, stores, hw, rfl⟩ := (mem_returned_iff ha hn plain).mp hit
    rcases hw with hl | ⟨-, hm⟩
    · exact hi clientID option stores hs hl
    · exact hm

theorem shared_returned_by_inner_filter_other_group : ∃ center : MemorySubCenter, center.Reachable ∧
      validatePublishEnvelope [] "$share/h/x" = .ok () ∧
      returned (center.getAllMatchClientV2 "$share/h/x") =
        [("carol", matchedSubscriptionFromOption { topic := "$share/g/$share/#", qos := 1 })] ∧
      center.MatchedInside "$share/h/x" := by
  have he : ∃ center : MemorySubCenter, center.Reachable ∧
      returned (center.getAllMatchClientV2 "$share/h/x") =
        [("carol", matchedSubscriptionFromOption { topic := "$share/g/$share/#", qos := 1 })] :=
    ⟨_, ⟨[.createSub "carol" "" [{ topic := "$share/g/$share/#", qos := 1 }]], rfl⟩, by decide⟩
  obtain ⟨center, hr, answer⟩ := he
  have ha : validatePublishEnvelope [] "$share/h/x" = .ok () := by decide
  refine ⟨center, hr, ha, answer, (shared_returned_by_inner_filter_iff hr ha).mp ?_⟩
  intro clientID subscription hit _
  rw [answer, mem_singleton] at hit
  obtain ⟨-, rfl⟩ := Prod.mk.inj hit
  decide

/-- A publish to `$share/g/a` reaches the subscriber of the shared filter `$share/g/a`, whose
inner filter `a` does not match it. -/
theorem shared_returned_by_its_text : ∃ center : MemorySubCenter, center.Reachable ∧
      validatePublishEnvelope [] "$share/g/a" = .ok () ∧
      ("alice", "$share/g/a") ∈
        (returned (center.getAllMatchClientV2 "$share/g/a")).map clientAndFilter ∧
      isShareTopic "$share/g/a" = true ∧
      matchTopicFilter (parseShareTopic "$share/g/a").2 "$share/g/a" = false := by
  refine ⟨_, ⟨[.createSub "alice" "" [{ topic := "$share/g/a", qos := 1 }]], rfl⟩, ?_⟩
  exact ⟨by decide, by decide, by decide, by decide⟩

end MemorySubCenter

end SkyTree.Subscription
