import SkyTree.Delivery.Router

/-!
# The plans of a route

The winner loop picks the least subscription of a lexicographic order: higher QoS
first, then fewer wildcards, more levels and the smaller filter. The ordinary
matches of one client have distinct filters, so the winner is unique and the plans
do not depend on the order in which the center lists its matches.
-/

namespace SkyTree.Delivery.Router

open Foundation Subscription List

/-! ## The winner -/

/-- Negated QoS, number of wildcards, negated depth and filter, compared in this order. -/
def Rank := Int ×ₗ Nat ×ₗ Int ×ₗ List Char

instance : LinearOrder Rank := inferInstanceAs (LinearOrder (Int ×ₗ Nat ×ₗ Int ×ₗ List Char))

def rank (subscription : MatchedSubscription) : Rank :=
  toLex (-subscription.qos, toLex ((wildcardMetrics subscription.topicFilter).1,
    toLex (-((wildcardMetrics subscription.topicFilter).2 : Int), subscription.topicFilter.toList)))

variable {first snd : MatchedSubscription}

theorem rank_lt_iff : rank first < rank snd ↔ -first.qos < -snd.qos ∨ -first.qos = -snd.qos ∧
      ((wildcardMetrics first.topicFilter).1 < (wildcardMetrics snd.topicFilter).1 ∨
        (wildcardMetrics first.topicFilter).1 = (wildcardMetrics snd.topicFilter).1 ∧
        (-((wildcardMetrics first.topicFilter).2 : Int) < -(wildcardMetrics snd.topicFilter).2 ∨
          -((wildcardMetrics first.topicFilter).2 : Int) = -(wildcardMetrics snd.topicFilter).2 ∧
          first.topicFilter.toList < snd.topicFilter.toList)) :=
  Prod.Lex.toLex_lt_toLex.trans (or_congr_right (and_congr_right fun _ =>
    Prod.Lex.toLex_lt_toLex.trans (or_congr_right (and_congr_right fun _ =>
      Prod.Lex.toLex_lt_toLex))))

theorem isBetterWinner_iff {subscription current : MatchedSubscription} :
    isBetterWinner subscription (some current) = true ↔ rank subscription < rank current := by
  rw [rank_lt_iff, isBetterWinner]
  by_cases qos : subscription.qos = current.qos
  · by_cases wildcards : (wildcardMetrics subscription.topicFilter).1 =
        (wildcardMetrics current.topicFilter).1
    · by_cases depth : (wildcardMetrics subscription.topicFilter).2 =
          (wildcardMetrics current.topicFilter).2
      · simp [qos, wildcards, depth]
      · have hne : ((wildcardMetrics subscription.topicFilter).2 : Int) ≠
            (wildcardMetrics current.topicFilter).2 := by omega
        simp [qos, wildcards, depth, hne]
    · simp [qos, wildcards]
  · simp [qos]

theorem topicFilter_eq_of_rank_eq (he : rank first = rank snd) :
    first.topicFilter = snd.topicFilter := by
  have hp := congrArg (fun key : Int ×ₗ Nat ×ₗ Int ×ₗ List Char =>
    (ofLex (ofLex (ofLex key).2).2).2) he
  exact String.toList_inj.mp hp

theorem qos_le_of_rank_le (le : rank first ≤ rank snd) : snd.qos ≤ first.qos := by
  have notLess := not_lt.mpr le
  rw [rank_lt_iff] at notLess
  omega

theorem shouldReplaceWinner_ofSubscription (sub cur : MatchedSubscription) :
    shouldReplaceWinner sub (.ofSubscription cur) = isBetterWinner sub (some cur) := rfl

def positiveIDs (subscriptions : List MatchedSubscription) : List Int :=
  (subscriptions.map MatchedSubscription.subscriptionIdentifier).filter fun id => decide (0 < id)

theorem selectWinnerAndSubIDs_eq (subs : List MatchedSubscription) : selectWinnerAndSubIDs subs =
      ((subs.argmin rank).elim {} WinnerState.ofSubscription, positiveIDs subs) := by
  induction subs using List.reverseRecOn with
  | nil => rfl
  | append_singleton subs last ih =>
    rw [selectWinnerAndSubIDs, foldl_append, foldl_cons, foldl_nil,
      ← selectWinnerAndSubIDs, ih, argmin_concat]
    apply Prod.ext
    · cases hl : subs.argmin rank with
      | none => rfl
      | some current =>
        simp only [selectNext, Option.elim_some, shouldReplaceWinner_ofSubscription,
          isBetterWinner_iff]
        split_ifs <;> rfl
    · simp only [selectNext, positiveIDs, map_append, filter_append]
      by_cases hp : last.subscriptionIdentifier ≤ 0
      · simp [hp]
      · simp [hp, not_le.mp hp]

def DistinctFilters (subscriptions : List MatchedSubscription) : Prop :=
  (subscriptions.map MatchedSubscription.topicFilter).Nodup

variable {subs : List MatchedSubscription}

theorem DistinctFilters.eq_of_rank_eq (hd : DistinctFilters subs)
    (inFst : first ∈ subs) (inSnd : snd ∈ subs)
    (he : rank first = rank snd) : first = snd :=
  inj_on_of_nodup_map hd inFst inSnd (topicFilter_eq_of_rank_eq he)

variable {reordered : List MatchedSubscription}

theorem argmin_rank_perm (hd : DistinctFilters subs) (hp : subs.Perm reordered) :
    subs.argmin rank = reordered.argmin rank := by
  cases first : subs.argmin rank with
  | none =>
    obtain rfl := argmin_eq_none.mp first
    rw [hp.nil_eq.symm]
    rfl
  | some least =>
    cases snd : reordered.argmin rank with
    | none =>
      obtain rfl := argmin_eq_none.mp snd
      rw [hp.eq_nil] at first
      cases first
    | some o =>
      have inFst := argmin_mem first
      have inSnd := hp.mem_iff.mpr (argmin_mem snd)
      have le := le_of_mem_argmin inSnd first
      have ge := le_of_mem_argmin (hp.mem_iff.mp inFst) snd
      rw [hd.eq_of_rank_eq inFst inSnd (le_antisymm le ge)]

/-! ## One plan per client -/

def planned (publisherClientID : ClientID) (client : ClientMatch) : List MatchedSubscription :=
  filterNoLocalMatches (splitMatches client.matched).1 client.clientID publisherClientID

def planFrom (publish : Mqtt.Publish) (clientID : ClientID)
    (subscriptions : List MatchedSubscription) (winner : MatchedSubscription) : ClientPlan where
  clientID := clientID
  deliveryQoS := effectiveQoS publish winner.qos
  subscriptionIDs := positiveIDs subscriptions
  winnerNoLocal := winner.noLocal
  winnerRAP := winner.retainAsPublished

def planOf (publish : Mqtt.Publish) (publisherClientID : ClientID) (client : ClientMatch) :
    Option ClientPlan :=
  if client.clientID = "" then none
  else ((planned publisherClientID client).argmin rank).map
    (planFrom publish client.clientID (planned publisherClientID client))

theorem buildClientPlan_eq (pub : Mqtt.Publish) (pcid : ClientID) (client : ClientMatch) :
    buildClientPlan client pub (splitMatches client.matched).1 pcid = planOf pub pcid client := by
  unfold buildClientPlan planOf
  by_cases hn : (splitMatches client.matched).1 = []
  · simp [hn, planned, filterNoLocalMatches]
  · rw [if_neg hn]
    by_cases hu : client.clientID = ""
    · simp [hu]
    · have filtered : filterNoLocalMatches (splitMatches client.matched).1 client.clientID
          pcid = planned pcid client := rfl
      simp only [if_neg hu, filtered, selectWinnerAndSubIDs_eq]
      cases hl : (planned pcid client).argmin rank with
      | none => simp [argmin_eq_none.mp hl]
      | some winner =>
        have hf : planned pcid client ≠ [] := by
          intro he
          simp [he] at hl
        simp [hf, WinnerState.ofSubscription, planFrom]

theorem routeMatches_plans (cms : List ClientMatch) (pub : Mqtt.Publish) (pcid : ClientID) :
    (routeMatches cms pub pcid).plans = cms.filterMap (planOf pub pcid) := by
  have hl (state : Assoc String ShareAgg × List ClientPlan) :
      (cms.foldl (routeClient pub pcid) state).2 = state.2 ++ cms.filterMap (planOf pub pcid) := by
    induction cms generalizing state with
    | nil => simp
    | cons client rest ih =>
      have hs : (routeClient pub pcid state client).2 =
          state.2 ++ (planOf pub pcid client).toList := by
        unfold routeClient
        by_cases he : client.matched = []
        · simp [he, planOf, planned, splitMatches, filterNoLocalMatches]
        · rw [if_neg he, ← buildClientPlan_eq]
          cases hb : buildClientPlan client pub (splitMatches client.matched).1 pcid <;> simp [hb]
      rw [foldl_cons, ih, hs, filterMap_cons]
      cases planOf pub pcid client <;> simp
  exact (hl (.empty, [])).trans (nil_append _)

/-! ## The plans and the returned matches -/

def eligible (clientMatches : List ClientMatch) (publisherClientID clientID : ClientID) :
    List MatchedSubscription :=
  ((returned clientMatches).filter fun hit =>
    hit.1 = clientID && !isSharedSubscription hit.2.topicFilter &&
      !excludedByNoLocal hit.1 publisherClientID hit.2).map Prod.snd

theorem eligible_cons (client : ClientMatch) (rest : List ClientMatch) (pcid clientID : ClientID) :
    eligible (client :: rest) pcid clientID =
      (if client.clientID = clientID then planned pcid client else []) ++
        eligible rest pcid clientID := by
  rw [eligible, returned, flatMap_cons, filter_append, map_append]
  congr 1
  by_cases he : client.clientID = clientID
  · subst he
    simp [filter_map, planned, splitMatches, filterNoLocalMatches, filter_filter,
      Function.comp_def, Bool.and_comm]
  · simp [filter_map, he, Function.comp_def]

variable {cms : List ClientMatch}

theorem eligible_of_not_mem {cid : ClientID}
    (ha : cid ∉ cms.map ClientMatch.clientID) (pcid : ClientID) :
    eligible cms pcid cid = [] := by
  induction cms with
  | nil => rfl
  | cons client rest ih =>
    rw [map_cons, mem_cons, not_or] at ha
    rw [eligible_cons, if_neg (Ne.symm ha.1), ih ha.2]
    rfl

theorem eligible_of_mem (hd : (cms.map ClientMatch.clientID).Nodup)
    {client : ClientMatch} (hm : client ∈ cms) (pcid : ClientID) :
    eligible cms pcid client.clientID = planned pcid client := by
  induction cms with
  | nil => cases hm
  | cons first rest ih =>
    rw [map_cons, nodup_cons] at hd
    rw [eligible_cons]
    rcases mem_cons.mp hm with rfl | hl
    · rw [if_pos rfl, eligible_of_not_mem hd.1, append_nil]
    · have hne : first.clientID ≠ client.clientID := fun he => hd.1 (he ▸ mem_map_of_mem hl)
      rw [if_neg hne, nil_append, ih hd.2 hl]

def IsBest (subscriptions : List MatchedSubscription) (best : MatchedSubscription) : Prop :=
  best ∈ subscriptions ∧
    ∀ other ∈ subscriptions, other ≠ best → isBetterWinner best (some other) = true

theorem IsBest.unique (isFirst : IsBest subs first) (isSecond : IsBest subs snd) : first = snd := by
  by_contra hne
  have hb := isBetterWinner_iff.mp (isSecond.2 first isFirst.1 hne)
  have ha := isBetterWinner_iff.mp (isFirst.2 snd isSecond.1 (Ne.symm hne))
  exact lt_asymm hb ha

variable {winner : MatchedSubscription}

theorem isBest_of_argmin (hd : DistinctFilters subs)
    (hl : subs.argmin rank = some winner) : IsBest subs winner := by
  refine ⟨argmin_mem hl, fun other hm hne => isBetterWinner_iff.mpr ?_⟩
  refine lt_of_le_of_ne (le_of_mem_argmin hm hl) fun he => hne ?_
  exact (hd.eq_of_rank_eq (argmin_mem hl) hm he).symm

structure PlanMeets (publish : Mqtt.Publish) (subscriptions : List MatchedSubscription)
    (plan : ClientPlan) : Prop where
  qos : ∃ top, (subscriptions.map MatchedSubscription.qos).maximum = some top ∧
    plan.deliveryQoS = min (publish.qos : Int) top
  identifiers : plan.subscriptionIDs.Perm (positiveIDs subscriptions)
  flags : ∃ best, IsBest subscriptions best ∧ (∀ other, IsBest subscriptions other → other = best) ∧
    plan.winnerRAP = best.retainAsPublished ∧ plan.winnerNoLocal = best.noLocal

theorem effectiveQoS_eq_min (pub : Mqtt.Publish) (granted : Int) :
    effectiveQoS pub granted = min (pub.qos : Int) granted := by
  unfold effectiveQoS
  split_ifs <;> omega

theorem maximum_qos_of_argmin (hl : subs.argmin rank = some winner) :
    (subs.map MatchedSubscription.qos).maximum = some winner.qos := by
  refine maximum_eq_coe_iff.mpr ⟨mem_map_of_mem (argmin_mem hl), ?_⟩
  intro qos hm
  obtain ⟨o, hi, rfl⟩ := mem_map.mp hm
  exact qos_le_of_rank_le (le_of_mem_argmin hi hl)

structure WellListed (clientMatches : List ClientMatch) : Prop where
  clients : (clientMatches.map ClientMatch.clientID).Nodup
  ordinary : ∀ client ∈ clientMatches, DistinctFilters (splitMatches client.matched).1

theorem WellListed.planned {cms : List ClientMatch} (hl : WellListed cms)
    {client : ClientMatch} (hm : client ∈ cms) (pcid : ClientID) :
    DistinctFilters (planned pcid client) :=
  (hl.ordinary client hm).sublist (filter_sublist.map _)

theorem getAllMatchClientV2_wellListed {center : MemorySubCenter}
    (ha : ShardsAgree center.shards) (topic : String) :
    WellListed (center.getAllMatchClientV2 topic) where
  clients := by
    rw [MemorySubCenter.getAllMatchClientV2, map_map]
    exact KeyedTable.distinct _
  ordinary := by
    intro client hm
    have ho := MemorySubCenter.nodup_ordinary_returned ha topic
    have hp : (client.matched.map fun sub => (client.clientID, sub)).Sublist
        (returned (center.getAllMatchClientV2 topic)) := by
      rw [returned, flatMap_def]
      exact sublist_flatten_of_mem (mem_map_of_mem hm)
    have own := ho.sublist ((hp.filter _).map _)
    rw [filter_map, map_map] at own
    refine List.Nodup.of_map (fun filter => (client.clientID, filter)) ?_
    rw [map_map]
    exact own

theorem planOf_eq_some_iff {pub : Mqtt.Publish} {pcid : ClientID}
    {client : ClientMatch} {plan : ClientPlan} :
    planOf pub pcid client = some plan ↔
      client.clientID ≠ "" ∧ ∃ winner, (planned pcid client).argmin rank = some winner ∧
        plan = planFrom pub client.clientID (planned pcid client) winner := by
  unfold planOf
  by_cases hu : client.clientID = ""
  · simp [hu]
  · simp [hu, eq_comm]

section Plans

variable {cms : List ClientMatch} (pub : Mqtt.Publish) (pcid : ClientID)

theorem mem_plans_iff {plan : ClientPlan} : plan ∈ (routeMatches cms pub pcid).plans ↔
      ∃ client ∈ cms, planOf pub pcid client = some plan := by
  rw [routeMatches_plans, mem_filterMap]

theorem nodup_plans (hl : WellListed cms) :
    ((routeMatches cms pub pcid).plans.map ClientPlan.clientID).Nodup := by
  rw [routeMatches_plans]
  refine hl.clients.sublist (map_filterMap_sublist fun client _ plan hb => ?_)
  obtain ⟨-, winner, -, rfl⟩ := planOf_eq_some_iff.mp hb
  rfl

theorem exists_plan_iff (hl : WellListed cms) (cid : ClientID) :
    (∃ plan ∈ (routeMatches cms pub pcid).plans, plan.clientID = cid) ↔
      cid ≠ "" ∧ eligible cms pcid cid ≠ [] := by
  constructor
  · rintro ⟨plan, hm, rfl⟩
    obtain ⟨client, hi, hb⟩ := (mem_plans_iff pub pcid).mp hm
    obtain ⟨hn, winner, hle, rfl⟩ := planOf_eq_some_iff.mp hb
    refine ⟨hn, ?_⟩
    change eligible cms pcid client.clientID ≠ []
    rw [eligible_of_mem hl.clients hi]
    intro he
    simp [he] at hle
  · rintro ⟨hn, hf⟩
    by_cases hp : cid ∈ cms.map ClientMatch.clientID
    · obtain ⟨client, hi, rfl⟩ := mem_map.mp hp
      rw [eligible_of_mem hl.clients hi] at hf
      cases hle : (planned pcid client).argmin rank with
      | none => exact absurd (argmin_eq_none.mp hle) hf
      | some winner =>
        have hb : planOf pub pcid client = some _ := planOf_eq_some_iff.mpr ⟨hn, winner, hle, rfl⟩
        exact ⟨_, (mem_plans_iff pub pcid).mpr ⟨client, hi, hb⟩, rfl⟩
    · exact absurd (eligible_of_not_mem hp pcid) hf

theorem planMeets_of_mem (hl : WellListed cms) {plan : ClientPlan}
    (hm : plan ∈ (routeMatches cms pub pcid).plans) :
    PlanMeets pub (eligible cms pcid plan.clientID) plan := by
  obtain ⟨client, hi, hb⟩ := (mem_plans_iff pub pcid).mp hm
  obtain ⟨-, winner, hle, rfl⟩ := planOf_eq_some_iff.mp hb
  change PlanMeets pub (eligible cms pcid client.clientID) _
  rw [eligible_of_mem hl.clients hi]
  have best := isBest_of_argmin (hl.planned hi pcid) hle
  exact ⟨⟨winner.qos, maximum_qos_of_argmin hle, effectiveQoS_eq_min pub winner.qos⟩, .refl _,
    winner, best, fun other also => also.unique best, rfl, rfl⟩

end Plans

/-! ## The order of the matches -/

/-- The clients in another order, each with its matches in another order. -/
def Reordered (clientMatches reordered : List ClientMatch) : Prop :=
  ∃ middle, List.Forall₂ (fun before after => before.clientID = after.clientID ∧
    before.matched.Perm after.matched) clientMatches middle ∧ middle.Perm reordered

def ClientPlan.content (plan : ClientPlan) : ClientID × Int × Multiset Int × Bool × Bool :=
  (plan.clientID, plan.deliveryQoS, plan.subscriptionIDs, plan.winnerNoLocal, plan.winnerRAP)

theorem planOf_content_eq (pub : Mqtt.Publish) (pcid : ClientID)
    {before after : ClientMatch} (cidEq : before.clientID = after.clientID)
    (hp : before.matched.Perm after.matched)
    (hd : DistinctFilters (planned pcid before)) :
    (planOf pub pcid before).map ClientPlan.content =
      (planOf pub pcid after).map ClientPlan.content := by
  have perm : (planned pcid before).Perm (planned pcid after) := by
    unfold planned splitMatches filterNoLocalMatches
    rw [cidEq]
    exact (hp.filter _).filter _
  unfold planOf
  rw [cidEq, ← argmin_rank_perm hd perm]
  split_ifs
  · rfl
  · cases (planned pcid before).argmin rank with
    | none => rfl
    | some winner =>
      have ids : (positiveIDs (planned pcid before) : Multiset Int) =
          positiveIDs (planned pcid after) :=
        Multiset.coe_eq_coe.mpr ((perm.map _).filter _)
      simp [ClientPlan.content, planFrom, ids]

theorem plans_content_perm {reordered : List ClientMatch} (hl : WellListed cms)
    (ho : Reordered cms reordered) (pub : Mqtt.Publish)
    (pcid : ClientID) :
    ((routeMatches cms pub pcid).plans.map ClientPlan.content).Perm
      ((routeMatches reordered pub pcid).plans.map ClientPlan.content) := by
  obtain ⟨mid, pointwise, hp⟩ := ho
  rw [routeMatches_plans, routeMatches_plans]
  refine .trans (.of_eq ?_) ((hp.filterMap _).map _)
  rw [map_filterMap, map_filterMap]
  have hd : ∀ client ∈ cms, DistinctFilters (planned pcid client) :=
    fun client hm => hl.planned hm pcid
  clear hl hp
  induction pointwise with
  | nil => rfl
  | cons he hr ih =>
    rw [filterMap_cons, filterMap_cons, planOf_content_eq pub pcid he.1 he.2 (hd _ mem_cons_self),
      ih fun client hm => hd client (mem_cons_of_mem _ hm)]

/-- A route has one plan for every named client with a match that No Local does not exclude; the
plan is made of those matches, whatever their order. -/
theorem route_plans {center : MemorySubCenter} (reachable : center.Reachable)
    (publish : Mqtt.Publish) (publisherClientID : ClientID) :
    let clientMatches := center.getAllMatchClientV2 publish.topic
    let plans := (route center publish publisherClientID).plans
    (plans.map ClientPlan.clientID).Nodup ∧
      (∀ clientID, (∃ plan ∈ plans, plan.clientID = clientID) ↔
        clientID ≠ "" ∧ eligible clientMatches publisherClientID clientID ≠ []) ∧
      (∀ plan ∈ plans,
        PlanMeets publish (eligible clientMatches publisherClientID plan.clientID) plan) ∧
      ∀ reordered, Reordered clientMatches reordered → (plans.map ClientPlan.content).Perm
          ((routeMatches reordered publish publisherClientID).plans.map ClientPlan.content) := by
  have hl := getAllMatchClientV2_wellListed reachable.agree publish.topic
  exact ⟨nodup_plans publish publisherClientID hl, exists_plan_iff publish publisherClientID hl,
    fun plan hm => planMeets_of_mem publish publisherClientID hl hm,
    fun reordered ho => plans_content_perm hl ho publish publisherClientID⟩

def overlapping : List Operation :=
  [.createSub "alice" "" [{ topic := "a", qos := 0, subscriptionIdentifier := 1 },
    { topic := "+", qos := 1, retainAsPublished := true, subscriptionIdentifier := 2 }]]

def publishA : Mqtt.Publish := { topic := "a", payload := [], qos := 2 }

theorem route_plans_overlapping : ∃ center : MemorySubCenter, center.Reachable ∧
      (route center publishA "bob").plans =
        [{ clientID := "alice", deliveryQoS := 1, subscriptionIDs := [1, 2],
           winnerNoLocal := false, winnerRAP := true }] ∧
      eligible (center.getAllMatchClientV2 "a") "bob" "alice" ≠ [] := by
  have he : ∃ center : MemorySubCenter, center.Reachable ∧
      (route center publishA "bob").plans =
        [{ clientID := "alice", deliveryQoS := 1, subscriptionIDs := [1, 2],
           winnerNoLocal := false, winnerRAP := true }] := ⟨_, ⟨overlapping, rfl⟩, by decide⟩
  obtain ⟨center, hr, plans⟩ := he
  have hp := (route_plans hr publishA "bob").2.1 "alice"
  refine ⟨center, hr, plans, (hp.mp ?_).2⟩
  rw [plans]
  exact ⟨_, mem_singleton_self _, rfl⟩

/-- A client without an identifier gets no plan, and the identifiers of a plan are listed in the
order of the matches. -/
theorem plan_missing_and_ordered : (∃ center : MemorySubCenter, center.Reachable ∧
      eligible (center.getAllMatchClientV2 "a") "bob" "" ≠ [] ∧
      (route center publishA "bob").plans = []) ∧
    ∃ center : MemorySubCenter, ∃ reordered, center.Reachable ∧
      Reordered (center.getAllMatchClientV2 "a") reordered ∧
      (route center publishA "bob").plans.map ClientPlan.subscriptionIDs = [[1, 2]] ∧
      (routeMatches reordered publishA "bob").plans.map ClientPlan.subscriptionIDs = [[2, 1]] := by
  constructor
  · exact ⟨_, ⟨[.createSub "" "" [{ topic := "a", qos := 1 }]], rfl⟩, by decide, by decide⟩
  · have he : ∃ center : MemorySubCenter, center.Reachable ∧ ∃ first second,
        center.getAllMatchClientV2 "a" =
          [{ clientID := "alice", maxQoS := 1, matched := [first, second] }] ∧
        (route center publishA "bob").plans.map ClientPlan.subscriptionIDs = [[1, 2]] ∧
        (routeMatches [{ clientID := "alice", maxQoS := 1, matched := [second, first] }] publishA
          "bob").plans.map ClientPlan.subscriptionIDs = [[2, 1]] :=
      ⟨_, ⟨overlapping, rfl⟩, _, _, rfl, by decide, by decide⟩
    obtain ⟨center, hr, first, second, ha, hp, hs⟩ := he
    refine ⟨center, _, hr, ?_, hp, hs⟩
    rw [ha]
    exact ⟨[{ clientID := "alice", maxQoS := 1, matched := [second, first] }],
      .cons ⟨rfl, .swap _ _ _⟩ .nil, .refl _⟩

end SkyTree.Delivery.Router
