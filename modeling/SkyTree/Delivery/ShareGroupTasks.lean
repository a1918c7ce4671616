import SkyTree.Delivery.ClientPlans

/-!
# The share-group tasks of a route

Shared matches are collected under the text `group|filter`. Groups may contain the
separator, so different pairs can have one text; the filter grammar and the common
publish topic rule that out for the subscriptions of one route.
-/

namespace SkyTree.Delivery.Router

open Foundation Subscription List Assoc

/-! ## The filter grammar -/

/-- The level checks of `ValidateTopicFilterSyntax`. -/
def validateFilterLevels : List String → Except String Unit
  | [] => .ok ()
  | level :: rest =>
    if level = "#" then
      if rest = [] then .ok ()
      else .error "multi-level wildcard must occupy the final segment"
    else if level.toList.contains '#' then
      .error "multi-level wildcard must occupy the final segment"
    else if level.toList.contains '+' ∧ level ≠ "+" then
      .error "single-level wildcard must occupy an entire segment"
    else validateFilterLevels rest

/-- A shared text is cut at its first separator; without one, group and filter are empty. -/
def validateTopicFilterSyntax (filter : String) : Except String Unit :=
  if filter = "" then .error "topic filter must be non-empty"
  else if startsWith filter "$share/" then
    let (group, inner) := parseShareTopic filter
    if group = "" ∨ inner = "" then
      .error "shared subscription must be $share/\x7bgroup\x7d/\x7bfilter\x7d"
    else if group.toList.any fun char => char = '+' || char = '#' then
      .error "shared subscription share name must not contain wildcards"
    else validateFilterLevels (splitTopicLevels inner)
  else validateFilterLevels (splitTopicLevels filter)

structure ValidShared (filter group inner : String) : Prop where
  text : filter.toList = "$share".toList ++ '/' :: (group.toList ++ '/' :: inner.toList)
  uncut : '/' ∉ group.toList
  groupNamed : group ≠ ""
  innerNamed : inner ≠ ""
  plain : (group.toList.any fun char => char = '+' || char = '#') = false
  levels : validateFilterLevels (splitTopicLevels inner) = .ok ()

theorem validShared_of_grammar {filter : String} (hs : isSharedSubscription filter = true)
    (hv : validateTopicFilterSyntax filter = .ok ()) :
    ValidShared filter (parseShareTopic filter).1 (parseShareTopic filter).2 := by
  have asTopic : isShareTopic filter = true := hs
  have starts : startsWith filter "$share/" = true := hs
  have hc : (parseShareTopic filter).1 ≠ "" ∧ (parseShareTopic filter).2 ≠ "" ∧
      ((parseShareTopic filter).1.toList.any fun char => char = '+' || char = '#') = false ∧
      validateFilterLevels (splitTopicLevels (parseShareTopic filter).2) = .ok () := by
    rw [validateTopicFilterSyntax, if_neg (ne_empty_of_isShareTopic asTopic), if_pos starts] at hv
    dsimp only at hv
    split_ifs at hv with hm hw
    rw [not_or] at hm
    exact ⟨hm.1, hm.2, by simpa using hw, hv⟩
  obtain ⟨grpName, inNamed, hp, hl⟩ := hc
  rcases isShareTopic_text_cases asTopic with ⟨name, -, -, parsed⟩ | ⟨group, inner, hu, ht, parsed⟩
  · simp [parsed] at grpName
  · rw [parsed] at grpName inNamed hp hl ⊢
    exact ⟨ht, hu, grpName, inNamed, hp, hl⟩

theorem intercalate_levelsOf (chars : List Char) :
    "/".intercalate (levelsOf chars) = String.ofList chars := by
  apply String.toList_inj.mp
  have hb : (levelsOf chars).map String.toList = chars.splitOn '/' := by
    simp [levelsOf, Function.comp_def]
  calc ("/".intercalate (levelsOf chars)).toList = List.intercalate ['/'] (chars.splitOn '/') := by
        rw [String.toList_intercalate, hb]
        rfl
    _ = chars := intercalate_splitOn '/'
    _ = (String.ofList chars).toList := String.toList_ofList.symm

theorem parseSharedSubscription_of_valid {filter group inner : String}
    (hv : ValidShared filter group inner) :
    parseSharedSubscription filter = .ok (group, inner) := by
  have hs : isSharedSubscription filter = true := isShareTopic_iff.mpr ⟨_, hv.text⟩
  have hd : filter.toList.drop "$share/".toList.length = group.toList ++ '/' :: inner.toList := by
    rw [hv.text]
    rfl
  have hf : String.ofList (group.toList ++ '/' :: inner.toList) ≠ "" := by
    intro hn
    simpa using congrArg String.toList hn
  have levels : splitTopicLevels (String.ofList (group.toList ++ '/' :: inner.toList)) =
      group :: levelsOf inner.toList := by
    rw [splitTopicLevels_of_ne hf, String.toList_ofList, levelsOf_append_cons hv.uncut,
      String.ofList_toList]
  obtain ⟨first, rest, cut⟩ := exists_cons_of_ne_nil (levelsOf_ne_nil inner.toList)
  have hj := intercalate_levelsOf inner.toList
  rw [cut, String.ofList_toList] at hj
  rw [parseSharedSubscription, if_neg (by simp [hs]), hd]
  simp only [if_neg hf, levels, cut, hj, if_neg hv.groupNamed,
    if_neg hv.innerNamed, hv.plain, Bool.false_eq_true, if_false]

/-! ## Keys -/

theorem plain_of_validateFilterLevels {level : String} {rest : List String}
    (hv : validateFilterLevels (level :: rest) = .ok ()) (noPlus : level ≠ "+")
    (noHash : level ≠ "#") : '+' ∉ level.toList ∧ '#' ∉ level.toList := by
  rw [validateFilterLevels, if_neg noHash] at hv
  split_ifs at hv with hh hp
  simp only [contains_eq_mem, decide_eq_true_eq, not_and, not_not] at hh hp
  exact ⟨fun hi => noPlus (hp hi), hh⟩

theorem matchLevels_cons_iff {first : String} {rest names : List String} (notHash : first ≠ "#") :
    matchLevels (first :: rest) names = true ↔
      ∃ name others, names = name :: others ∧ (first = "+" ∨ first = name) ∧
        matchLevels rest others = true := by
  cases names <;> simp [matchLevels, notHash]

/-- No filter that matches a topic is another one behind a bar: the bar would make its first
level a literal that the topic cannot have twice. -/
theorem not_matched_twice {before : List Char} {inner outer : String} {topic : String}
    (hu : '/' ∉ before) (text : outer.toList = before ++ '|' :: inner.toList)
    (hv : validateFilterLevels (splitTopicLevels outer) = .ok ())
    (fitIn : matchTopicFilter inner topic = true)
    (fitOut : matchTopicFilter outer topic = true) : False := by
  obtain ⟨inNamed, -, innerLevels⟩ := matchTopicFilter_iff.mp fitIn
  obtain ⟨outerNamed, -, outerLevels⟩ := matchTopicFilter_iff.mp fitOut
  have innerMatched := (Bool.and_eq_true_iff.mp innerLevels).2
  have outerMatched := (Bool.and_eq_true_iff.mp outerLevels).2
  obtain ⟨first, rest, cut⟩ := exists_cons_of_ne_nil (levelsOf_ne_nil inner.toList)
  have hb : levelsOf outer.toList = String.ofList (before ++ ['|'] ++ first.toList) :: rest := by
    rw [text, ← levelsOf_append (by simpa using hu) cut]
    simp
  rw [splitTopicLevels_of_ne inNamed, cut] at innerMatched
  rw [splitTopicLevels_of_ne outerNamed, hb] at outerMatched hv
  generalize hl : String.ofList (before ++ ['|'] ++ first.toList) = level at *
  have hc : level.toList = before ++ ['|'] ++ first.toList := by
    rw [← hl, String.toList_ofList]
  have noPlus : level ≠ "+" := by
    rintro rfl
    have bar : '|' ∈ "+".toList := by rw [hc]; simp
    simp at bar
  have noHash : level ≠ "#" := by
    rintro rfl
    have bar : '|' ∈ "#".toList := by rw [hc]; simp
    simp at bar
  obtain ⟨noPlus', noHash'⟩ := plain_of_validateFilterLevels hv noPlus noHash
  have plain : first ≠ "+" := by
    rintro rfl
    exact noPlus' (by rw [hc]; simp)
  have hh : first ≠ "#" := by
    rintro rfl
    exact noHash' (by rw [hc]; simp)
  obtain ⟨name, others, hn, he, -⟩ := (matchLevels_cons_iff hh).mp innerMatched
  obtain ⟨name', others', names', hs, -⟩ := (matchLevels_cons_iff noHash).mp outerMatched
  have nameEq : name = name' := by
    rw [hn] at names'
    exact (List.cons.inj names').1
  have heq : first = level := by
    rw [he.resolve_left plain, hs.resolve_left noPlus, nameEq]
  have hle := congrArg (fun text => text.toList.length) heq
  simp only [hc, length_append, length_singleton] at hle
  omega

theorem shareKey_injective {topic filter filter' group group' inner inner' : String}
    (hv : ValidShared filter group inner) (valid' : ValidShared filter' group' inner')
    (hm : matchTopicFilter inner topic = true) (matched' : matchTopicFilter inner' topic = true)
    (he : shareKey group inner = shareKey group' inner') : group = group' ∧ inner = inner' := by
  have texts : group.toList ++ '|' :: inner.toList = group'.toList ++ '|' :: inner'.toList := by
    simpa [shareKey] using congrArg String.toList he
  rcases append_eq_append_iff.mp texts with ⟨mid, hg, tails⟩ | ⟨mid, hg, tails⟩
  · cases mid with
    | nil =>
      simp only [append_nil, nil_append, List.cons.injEq, true_and] at hg tails
      exact ⟨String.toList_inj.mp hg.symm, String.toList_inj.mp tails⟩
    | cons bar mid =>
      obtain ⟨rfl, ht⟩ := List.cons.inj tails
      refine (not_matched_twice ?_ ht hv.levels matched' hm).elim
      intro hi
      exact valid'.uncut (by rw [hg]; simp [hi])
  · cases mid with
    | nil =>
      simp only [append_nil, nil_append, List.cons.injEq, true_and] at hg tails
      exact ⟨String.toList_inj.mp hg, String.toList_inj.mp tails.symm⟩
    | cons bar mid =>
      obtain ⟨rfl, ht⟩ := List.cons.inj tails
      refine (not_matched_twice ?_ ht valid'.levels hm matched').elim
      intro hi
      exact hv.uncut (by rw [hg]; simp [hi])

/-! ## Collecting the shared matches -/

def keyOf (subscription : MatchedSubscription) : Option String :=
  match parseSharedSubscription subscription.topicFilter with
  | .error _ => none
  | .ok (shareGroup, actualTopicFilter) => some (shareKey shareGroup actualTopicFilter)

/-- What is collected from the members of one key, the first of which names the pair. -/
def aggregateOf (members : List MatchedSubscription) : Option ShareAgg :=
  match members with
  | [] => none
  | first :: rest =>
    match parseSharedSubscription first.topicFilter with
    | .error _ => none
    | .ok (shareGroup, actualTopicFilter) => some
        { shareGroup := shareGroup
          topicFilter := actualTopicFilter
          winner := (first :: rest).argmin rank
          subIDs := positiveIDs (first :: rest) }

def collect (aggregates : Assoc String ShareAgg) (subscription : MatchedSubscription) :
    Assoc String ShareAgg :=
  match parseSharedSubscription subscription.topicFilter with
  | .error _ => aggregates
  | .ok (shareGroup, actualTopicFilter) =>
    Assoc.set aggregates (shareKey shareGroup actualTopicFilter)
      (((aggregates.lookup (shareKey shareGroup actualTopicFilter)).getD
        { shareGroup := shareGroup, topicFilter := actualTopicFilter }).add subscription)

theorem parseSharedSubscription_ok {filter group inner : String}
    (hp : parseSharedSubscription filter = .ok (group, inner)) : group ≠ "" ∧ inner ≠ "" := by
  unfold parseSharedSubscription at hp
  dsimp only at hp
  split_ifs at hp
  split at hp
  · cases hp
  · cases hp
  · split_ifs at hp with hu hw he
    obtain ⟨rfl, rfl⟩ := Prod.mk.inj (Except.ok.inj hp)
    exact ⟨hu, he⟩

def buildSharedSubscriptionTopicFilter (shareGroup topicFilter : String) : String :=
  "$share/" ++ shareGroup ++ "/" ++ topicFilter

theorem eq_build_of_parseSharedSubscription {filter group inner : String}
    (hp : parseSharedSubscription filter = .ok (group, inner)) :
    filter = buildSharedSubscriptionTopicFilter group inner := by
  unfold parseSharedSubscription at hp
  dsimp only at hp
  split_ifs at hp with hu he
  have hs : "$share/".toList <+: filter.toList := by
    simpa [isSharedSubscription, startsWith] using hu
  obtain ⟨rest, text⟩ := hs
  rw [← text, drop_left] at he hp
  rw [splitTopicLevels_of_ne he, String.toList_ofList] at hp
  have hj := intercalate_levelsOf rest
  rcases cut : levelsOf rest with _ | ⟨shareGroup, _ | ⟨level, levels⟩⟩ <;> rw [cut] at hp hj
  · cases hp
  · cases hp
  · dsimp only at hp
    split_ifs at hp
    obtain ⟨rfl, rfl⟩ := Prod.mk.inj (Except.ok.inj hp)
    have ht : rest = shareGroup.toList ++ '/' :: ("/".intercalate (level :: levels)).toList := by
      rw [← String.toList_ofList (l := rest), ← hj]
      simp [String.toList_intercalate, List.intercalate]
    apply String.toList_inj.mp
    rw [← text, ht]
    simp [buildSharedSubscriptionTopicFilter]

theorem aggregateSharedMatch_eq (clientID publisherClientID : ClientID)
    (aggregates : Assoc String ShareAgg) (subscription : MatchedSubscription) :
    aggregateSharedMatch clientID publisherClientID aggregates subscription =
      if excludedByNoLocal clientID publisherClientID subscription then aggregates
      else collect aggregates subscription := by
  unfold aggregateSharedMatch collect
  split_ifs
  · rfl
  · cases hp : parseSharedSubscription subscription.topicFilter with
    | error message => rfl
    | ok pair =>
      obtain ⟨group, inner⟩ := pair
      have hn := parseSharedSubscription_ok hp
      simp [hn]

theorem positiveIDs_concat (subs : List MatchedSubscription) (last : MatchedSubscription) :
    positiveIDs (subs ++ [last]) = if last.subscriptionIdentifier > 0 then
      positiveIDs subs ++ [last.subscriptionIdentifier] else positiveIDs subs := by
  by_cases hp : last.subscriptionIdentifier > 0 <;> simp [positiveIDs, hp]

theorem positiveIDs_singleton (sub : MatchedSubscription) :
    positiveIDs [sub] = if sub.subscriptionIdentifier > 0 then
      [sub.subscriptionIdentifier] else [] :=
  positiveIDs_concat [] sub

theorem argmin_rank_concat (subs : List MatchedSubscription) (last : MatchedSubscription) :
    (subs ++ [last]).argmin rank = if isBetterWinner last (subs.argmin rank) then some last
      else subs.argmin rank := by
  rw [argmin_concat]
  cases subs.argmin rank with
  | none => rfl
  | some cur => simp only [isBetterWinner_iff]

theorem aggregateOf_concat {members : List MatchedSubscription} {agg : ShareAgg}
    (hb : aggregateOf members = some agg) (last : MatchedSubscription) :
    aggregateOf (members ++ [last]) = some (agg.add last) := by
  cases members with
  | nil => cases hb
  | cons first rest =>
    unfold aggregateOf at hb ⊢
    cases hp : parseSharedSubscription first.topicFilter with
    | error msg => simp [hp] at hb
    | ok pair =>
      simp only [hp, Option.some.injEq] at hb
      subst hb
      simp only [cons_append, hp]
      rw [← cons_append, argmin_rank_concat, positiveIDs_concat]
      rfl

theorem aggregateOf_eq_some {key : String} {members : List MatchedSubscription}
    (hf : members ≠ []) (hk : ∀ member ∈ members, keyOf member = some key) :
    ∃ group inner, ∃ first ∈ members, parseSharedSubscription first.topicFilter =
      .ok (group, inner) ∧
      shareKey group inner = key ∧
      aggregateOf members = some
        { shareGroup := group, topicFilter := inner, winner := members.argmin rank,
          subIDs := positiveIDs members } := by
  obtain ⟨first, rest, rfl⟩ := exists_cons_of_ne_nil hf
  have keyFst := hk first mem_cons_self
  unfold keyOf at keyFst
  cases hp : parseSharedSubscription first.topicFilter with
  | error msg => simp [hp] at keyFst
  | ok pair =>
    obtain ⟨group, inner⟩ := pair
    rw [hp] at keyFst
    refine ⟨group, inner, first, mem_cons_self, hp, Option.some.inj keyFst, ?_⟩
    simp [aggregateOf, hp]

theorem lookup_foldl_collect (subs : List MatchedSubscription) (key : String) :
    (subs.foldl collect .empty).lookup key =
      aggregateOf (subs.filter fun sub => keyOf sub = some key) := by
  induction subs using List.reverseRecOn with
  | nil => rfl
  | append_singleton subs last ih =>
    rw [foldl_append, foldl_cons, foldl_nil, filter_append]
    cases hp : parseSharedSubscription last.topicFilter with
    | error msg =>
      simpa [collect, keyOf, hp] using ih
    | ok pair =>
      obtain ⟨group, inner⟩ := pair
      have hk : keyOf last = some (shareKey group inner) := by simp [keyOf, hp]
      by_cases hit : key = shareKey group inner
      · subst hit
        simp only [collect, hp, lookup_set_self, ih]
        rw [filter_cons_of_pos (by simp [hk]), filter_nil]
        by_cases hn : subs.filter (fun sub => keyOf sub = some (shareKey group inner)) = []
        · rw [hn]
          simp [aggregateOf, hp, ShareAgg.add, isBetterWinner, positiveIDs_singleton]
        · obtain ⟨_, _, _, _, _, _, hb⟩ :=
            aggregateOf_eq_some hn fun member hi => by simpa using of_mem_filter hi
          rw [hb, aggregateOf_concat hb last]
          rfl
      · simp only [collect, hp, lookup_set_of_ne _ _ hit, ih]
        rw [filter_cons_of_neg (by simpa [hk] using Ne.symm hit), filter_nil, append_nil]

/-! ## The tasks -/

def sharedEligible (clientMatches : List ClientMatch) (publisherClientID : ClientID) :
    List MatchedSubscription :=
  ((returned clientMatches).filter fun hit => isSharedSubscription hit.2.topicFilter &&
    !excludedByNoLocal hit.1 publisherClientID hit.2).map Prod.snd

def members (clientMatches : List ClientMatch) (publisherClientID : ClientID)
    (group inner : String) : List MatchedSubscription :=
  (sharedEligible clientMatches publisherClientID).filter fun subscription =>
    parseShareTopic subscription.topicFilter = (group, inner)

def ShareGroupTask.pair (task : ShareGroupTask) : String × String :=
  (task.shareGroup, task.topicFilter)

theorem aggregateSharedMatches_eq (clientID publisherClientID : ClientID)
    (sharedMatches : List MatchedSubscription) (aggregates : Assoc String ShareAgg) :
    aggregateSharedMatches clientID sharedMatches aggregates publisherClientID =
      (sharedMatches.filter fun subscription =>
        !excludedByNoLocal clientID publisherClientID subscription).foldl collect aggregates := by
  rw [aggregateSharedMatches, foldl_filter]
  congr 1
  funext aggregates subscription
  rw [aggregateSharedMatch_eq]
  cases excludedByNoLocal clientID publisherClientID subscription <;> rfl

theorem routeMatches_shareGroupTasks (cms : List ClientMatch) (pub : Mqtt.Publish)
    (publisherClientID : ClientID) :
    (routeMatches cms pub publisherClientID).shareGroupTasks =
      buildShareGroupTasks ((sharedEligible cms publisherClientID).foldl collect .empty)
        pub publisherClientID := by
  have hl (state : Assoc String ShareAgg × List ClientPlan) :
      (cms.foldl (routeClient pub publisherClientID) state).1 =
        (sharedEligible cms publisherClientID).foldl collect state.1 := by
    induction cms generalizing state with
    | nil => rfl
    | cons client rest ih =>
      have hs : (routeClient pub publisherClientID state client).1 =
          aggregateSharedMatches client.clientID (splitMatches client.matched).2 state.1
            publisherClientID := by
        unfold routeClient
        by_cases he : client.matched = []
        · simp [he, splitMatches, aggregateSharedMatches]
        · rw [if_neg he]
          dsimp only
          split <;> rfl
      have own : sharedEligible (client :: rest) publisherClientID =
          ((splitMatches client.matched).2.filter fun sub =>
            !excludedByNoLocal client.clientID publisherClientID sub) ++
            sharedEligible rest publisherClientID := by
        rw [sharedEligible, returned, flatMap_cons, filter_append, map_append]
        congr 1
        simp [filter_map, splitMatches, filter_filter, Function.comp_def, Bool.and_comm]
      rw [foldl_cons, ih, hs, aggregateSharedMatches_eq, own, foldl_append]
  exact congrArg (fun aggs => buildShareGroupTasks aggs pub publisherClientID) (hl (.empty, []))

def taskOf (publish : Mqtt.Publish) (publisherClientID : ClientID) (group inner : String)
    (subscriptions : List MatchedSubscription) (winner : MatchedSubscription) : ShareGroupTask where
  shareGroup := group
  topicFilter := inner
  deliveryQoS := effectiveQoS publish winner.qos
  publishQoS := publish.qos
  publisherClient := publisherClientID
  subscriptionIDs := positiveIDs subscriptions
  winnerNoLocal := winner.noLocal
  winnerRAP := winner.retainAsPublished

section Tasks

variable (pub : Mqtt.Publish) (publisherClientID : ClientID)
  (subs : List MatchedSubscription)

def keyed (key : String) : List MatchedSubscription :=
  subs.filter fun subscription => keyOf subscription = some key

theorem task_of_entry {key : String} {agg : ShareAgg}
    (entry : (subs.foldl collect .empty).lookup key = some agg) :
    ∃ group inner, ∃ first ∈ keyed subs key, ∃ winner,
      parseSharedSubscription first.topicFilter = .ok (group, inner) ∧
      shareKey group inner = key ∧ (keyed subs key).argmin rank = some winner ∧
      agg = { shareGroup := group, topicFilter := inner, winner := some winner,
                    subIDs := positiveIDs (keyed subs key) } := by
  rw [lookup_foldl_collect] at entry
  change aggregateOf (keyed subs key) = some agg at entry
  have hf : keyed subs key ≠ [] := by
    intro hn
    simp [hn, aggregateOf] at entry
  obtain ⟨group, inner, first, member, hp, he, hb⟩ :=
    aggregateOf_eq_some hf fun member hi => by simpa using of_mem_filter hi
  rw [hb] at entry
  cases hl : (keyed subs key).argmin rank with
  | none => exact absurd (argmin_eq_none.mp hl) hf
  | some winner =>
    rw [hl] at entry
    exact ⟨group, inner, first, member, winner, hp, he, rfl, (Option.some.inj entry).symm⟩

theorem task_of_mem {task : ShareGroupTask}
    (hm : task ∈ buildShareGroupTasks (subs.foldl collect .empty) pub publisherClientID) :
    ∃ group inner, ∃ first ∈ keyed subs (shareKey group inner), ∃ winner,
      parseSharedSubscription first.topicFilter = .ok (group, inner) ∧
      (keyed subs (shareKey group inner)).argmin rank = some winner ∧
      task = taskOf pub publisherClientID group inner
        (keyed subs (shareKey group inner)) winner := by
  obtain ⟨⟨key, agg⟩, entry, hb⟩ := mem_filterMap.mp hm
  obtain ⟨group, inner, first, hi, winner, hp, rfl, hl, rfl⟩ :=
    task_of_entry subs (lookup_eq_some_iff.mpr entry)
  have hn := parseSharedSubscription_ok hp
  simp only [hn, or_self, if_false, Option.some.injEq] at hb
  exact ⟨group, inner, first, hi, winner, hp, hl, hb.symm⟩

theorem exists_task_of_keyed {key : String} (hf : keyed subs key ≠ []) :
    ∃ task ∈ buildShareGroupTasks (subs.foldl collect .empty) pub publisherClientID,
      shareKey task.shareGroup task.topicFilter = key := by
  obtain ⟨group, inner, first, -, hp, rfl, hb⟩ :=
    aggregateOf_eq_some hf fun member hi => by simpa using of_mem_filter hi
  have hn := parseSharedSubscription_ok hp
  cases hl : (keyed subs (shareKey group inner)).argmin rank with
  | none => exact absurd (argmin_eq_none.mp hl) hf
  | some winner =>
    have entry := (lookup_foldl_collect subs (shareKey group inner)).trans hb
    rw [hl] at entry
    refine ⟨taskOf pub publisherClientID group inner
      (keyed subs (shareKey group inner)) winner, ?_, rfl⟩
    refine mem_filterMap.mpr ⟨_, lookup_eq_some_iff.mp entry, ?_⟩
    simp [hn, taskOf]

theorem nodup_tasks : ((buildShareGroupTasks (subs.foldl collect .empty) pub publisherClientID).map
      ShareGroupTask.pair).Nodup := by
  have hk := (subs.foldl collect .empty).distinct
  refine List.Nodup.of_map (fun pair => shareKey pair.1 pair.2) ?_
  rw [map_map]
  refine hk.sublist (map_filterMap_sublist ?_)
  rintro ⟨key, agg⟩ entry task hb
  obtain ⟨group, inner, first, hi, winner, hp, he, hl, rfl⟩ :=
    task_of_entry subs (lookup_eq_some_iff.mpr entry)
  have hn := parseSharedSubscription_ok hp
  simp only [hn, or_self, if_false, Option.some.injEq] at hb
  rw [← hb]
  exact he

end Tasks

def SharedMatching (clientMatches : List ClientMatch) (topic : String) : Prop :=
  ∀ hit ∈ returned clientMatches, isSharedSubscription hit.2.topicFilter = true →
    validateTopicFilterSyntax hit.2.topicFilter = .ok () ∧
      matchTopicFilter (parseShareTopic hit.2.topicFilter).2 topic = true

section Route

variable {cms : List ClientMatch} {topic : String}
  (matching : SharedMatching cms topic) (publisherClientID : ClientID)

include matching

theorem valid_of_sharedEligible {sub : MatchedSubscription}
    (hm : sub ∈ sharedEligible cms publisherClientID) :
    ValidShared sub.topicFilter (parseShareTopic sub.topicFilter).1
        (parseShareTopic sub.topicFilter).2 ∧
      matchTopicFilter (parseShareTopic sub.topicFilter).2 topic = true := by
  obtain ⟨hit, hk, rfl⟩ := mem_map.mp hm
  obtain ⟨hi, hs⟩ := mem_filter.mp hk
  have isShared := (Bool.and_eq_true_iff.mp hs).1
  obtain ⟨syn, matched⟩ := matching hit hi isShared
  exact ⟨validShared_of_grammar isShared syn, matched⟩

theorem parse_of_sharedEligible {sub : MatchedSubscription}
    (hm : sub ∈ sharedEligible cms publisherClientID) :
    parseSharedSubscription sub.topicFilter = .ok (parseShareTopic sub.topicFilter) :=
  parseSharedSubscription_of_valid (valid_of_sharedEligible matching publisherClientID hm).1

/-- The members of a key are the members of its pair: the joined text merges no two pairs. -/
theorem keyed_eq_members {first : MatchedSubscription}
    (hi : first ∈ sharedEligible cms publisherClientID) {group inner : String}
    (hp : parseShareTopic first.topicFilter = (group, inner)) :
    keyed (sharedEligible cms publisherClientID) (shareKey group inner) =
      members cms publisherClientID group inner := by
  refine filter_congr fun sub hm => ?_
  have own := parse_of_sharedEligible matching publisherClientID hm
  have key : keyOf sub = some (shareKey (parseShareTopic sub.topicFilter).1
      (parseShareTopic sub.topicFilter).2) := by
    simp [keyOf, own]
  rw [decide_eq_decide, key, Option.some.injEq]
  constructor
  · intro he
    obtain ⟨hv, matched⟩ := valid_of_sharedEligible matching publisherClientID hm
    obtain ⟨valid', matched'⟩ := valid_of_sharedEligible matching publisherClientID hi
    rw [hp] at valid' matched'
    obtain ⟨grpEq, innerEq⟩ := shareKey_injective hv valid' matched matched' he
    exact Prod.ext grpEq innerEq
  · intro he
    rw [he]

end Route

/-- A route has one task for every group and filter with a member that No Local does not exclude;
its QoS and its identifiers are those of the members of that pair alone. -/
theorem route_share_group_tasks (clientMatches : List ClientMatch) (publish : Mqtt.Publish)
    (publisherClientID : ClientID) (matching : SharedMatching clientMatches publish.topic) :
    let tasks := (routeMatches clientMatches publish publisherClientID).shareGroupTasks
    (tasks.map ShareGroupTask.pair).Nodup ∧
      (∀ group inner, (∃ task ∈ tasks, task.pair = (group, inner)) ↔
        members clientMatches publisherClientID group inner ≠ []) ∧
      ∀ task ∈ tasks, ∃ top,
        ((members clientMatches publisherClientID task.shareGroup task.topicFilter).map
          MatchedSubscription.qos).maximum = some top ∧
        task.deliveryQoS = min (publish.qos : Int) top ∧
        task.subscriptionIDs.Perm (positiveIDs
          (members clientMatches publisherClientID task.shareGroup task.topicFilter)) := by
  dsimp only
  rw [routeMatches_shareGroupTasks]
  -- the members a task was made of are the members of its pair
  have own {task : ShareGroupTask} (hm : task ∈ buildShareGroupTasks
      ((sharedEligible clientMatches publisherClientID).foldl collect .empty) publish
      publisherClientID) :
      ∃ first ∈ sharedEligible clientMatches publisherClientID, ∃ winner,
        parseShareTopic first.topicFilter = task.pair ∧
        (members clientMatches publisherClientID task.shareGroup task.topicFilter).argmin rank =
          some winner ∧
        task = taskOf publish publisherClientID task.shareGroup task.topicFilter
          (members clientMatches publisherClientID task.shareGroup task.topicFilter) winner := by
    obtain ⟨group, inner, first, mem, winner, hp, hl, rfl⟩ :=
      task_of_mem publish publisherClientID _ hm
    have hi := mem_of_mem_filter mem
    have pair : parseShareTopic first.topicFilter = (group, inner) :=
      Except.ok.inj ((parse_of_sharedEligible matching publisherClientID hi).symm.trans hp)
    have he := keyed_eq_members matching publisherClientID hi pair
    rw [he] at hl ⊢
    exact ⟨first, hi, winner, pair, hl, rfl⟩
  refine ⟨nodup_tasks publish publisherClientID _, fun group inner => ⟨?_, ?_⟩, ?_⟩
  · rintro ⟨task, hm, pair⟩
    obtain ⟨-, -, winner, -, hl, -⟩ := own hm
    obtain ⟨rfl, rfl⟩ := Prod.mk.inj pair
    intro hn
    simp [hn] at hl
  · intro hf
    obtain ⟨first, hi⟩ := exists_mem_of_ne_nil _ hf
    obtain ⟨able, pair⟩ := mem_filter.mp hi
    have hp : parseShareTopic first.topicFilter = (group, inner) := by simpa using pair
    rw [← keyed_eq_members matching publisherClientID able hp] at hf
    obtain ⟨task, hm, key⟩ := exists_task_of_keyed publish publisherClientID _ hf
    obtain ⟨other, able', -, otherPair, -, -⟩ := own hm
    refine ⟨task, hm, ?_⟩
    obtain ⟨hv, matched⟩ := valid_of_sharedEligible matching publisherClientID able'
    obtain ⟨valid', matched'⟩ := valid_of_sharedEligible matching publisherClientID able
    rw [otherPair] at hv matched
    rw [hp] at valid' matched'
    obtain ⟨grpEq, innerEq⟩ := shareKey_injective hv valid' matched matched' key
    exact Prod.ext grpEq innerEq
  · intro task hm
    obtain ⟨-, -, winner, -, hl, made⟩ := own hm
    refine ⟨winner.qos, maximum_qos_of_argmin hl, ?_, ?_⟩
    · rw [made, ← effectiveQoS_eq_min]
      rfl
    · rw [made]
      exact .refl _

def sharedMatch (clientID : ClientID) (filter : String) (qos : Int) (noLocal : Bool) :
    ClientMatch where
  clientID := clientID
  maxQoS := qos
  matched := [matchedSubscriptionFromOption { topic := filter, qos := qos, noLocal := noLocal }]

instance (clientMatches : List ClientMatch) (topic : String) :
    Decidable (SharedMatching clientMatches topic) :=
  inferInstanceAs (Decidable (∀ hit ∈ returned clientMatches, _))

def twoGroups : List ClientMatch :=
  [sharedMatch "alice" "$share/g/a" 0 false, sharedMatch "bob" "$share/g/a" 1 false,
    sharedMatch "carol" "$share/g|/+" 2 false]

theorem route_share_group_tasks_two_groups : SharedMatching twoGroups "a" ∧
      (routeMatches twoGroups publishA "dave").shareGroupTasks.map
        (fun task => (task.pair, task.deliveryQoS)) = [(("g", "a"), 1), (("g|", "+"), 2)] ∧
      members twoGroups "dave" "g|" "+" ≠ [] := by
  have matching : SharedMatching twoGroups publishA.topic := by decide
  have ht := (route_share_group_tasks twoGroups publishA "dave" matching).2.1 "g|" "+"
  exact ⟨matching, by decide, ht.mp (by decide)⟩

/-- The only member of a group published the message and asked for No Local: there is no task. -/
theorem no_task_for_own_no_local : SharedMatching [sharedMatch "alice" "$share/g/a" 1 true] "a" ∧
      parseSharedSubscription "$share/g/a" = .ok ("g", "a") ∧
      (routeMatches [sharedMatch "alice" "$share/g/a" 1 true] publishA "alice").shareGroupTasks =
        [] := by
  decide

end SkyTree.Delivery.Router
