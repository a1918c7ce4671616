import SkyTree.Client.MessageExpiry
import SkyTree.Client.Subscribe

/-!
# Subscription options of a retained message

A retained message is sent with options chosen from the matches of the client, by a second
copy of the router's winner loop. The router leaves shared subscriptions out of a client's
plan; the retained path does not, so the two agree where the shared matches add nothing.
-/

namespace SkyTree.Client

open Foundation Subscription Delivery.Router Mqtt Retain List

/-! ## Choosing the options -/

structure RetainedSubscriptionWinner where
  qos : Int := 0
  rap : Bool := true
  filter : String := ""
  wildcardCnt : Nat := 0
  depth : Nat := 0
  set : Bool := false

def retainedFilterMetrics (filter : String) : Nat × Nat := wildcardMetrics filter

namespace RetainedSubscriptionWinner

def better (winner : RetainedSubscriptionWinner) (subscription : MatchedSubscription) : Bool :=
  let (wildcardCnt, depth) := retainedFilterMetrics subscription.topicFilter
  if winner.set = false then true
  else if subscription.qos ≠ winner.qos then subscription.qos > winner.qos
  else if wildcardCnt ≠ winner.wildcardCnt then wildcardCnt < winner.wildcardCnt
  else if depth ≠ winner.depth then depth > winner.depth
  else subscription.topicFilter.toList < winner.filter.toList

/-- `update` overwrites every field of the winner. -/
def update (subscription : MatchedSubscription) : RetainedSubscriptionWinner where
  qos := subscription.qos
  rap := subscription.retainAsPublished
  filter := subscription.topicFilter
  wildcardCnt := (retainedFilterMetrics subscription.topicFilter).1
  depth := (retainedFilterMetrics subscription.topicFilter).2
  set := true

end RetainedSubscriptionWinner

def chooseNext (state : RetainedSubscriptionWinner × List Int)
    (subscription : MatchedSubscription) : RetainedSubscriptionWinner × List Int :=
  (if state.1.better subscription then .update subscription else state.1,
    if subscription.subscriptionIdentifier > 0 then state.2 ++ [subscription.subscriptionIdentifier]
    else state.2)

def chooseRetainedSubscriptionOptions (subscriptions : List MatchedSubscription) :
    RetainedSubscriptionWinner × List Int :=
  subscriptions.foldl chooseNext ({}, [])

def filterNoLocalRetainedMatches (subscriptions : List MatchedSubscription)
    (clientID publisherClientID : ClientID) : List MatchedSubscription :=
  filterNoLocalMatches subscriptions clientID publisherClientID

def retainedMatchesForClient (center : MemorySubCenter) (clientID publisherClientID : ClientID)
    (topicName : String) : List MatchedSubscription :=
  match (center.getAllMatchClientV2 topicName).find? fun client => client.clientID = clientID with
  | none => []
  | some client => filterNoLocalRetainedMatches client.matched clientID publisherClientID

def getRetainedMessageSubscriptionOptions (center : MemorySubCenter)
    (clientID publisherClientID : ClientID) (topicName : String) :
    Option (RetainedSubscriptionWinner × List Int) :=
  let subscriptions := retainedMatchesForClient center clientID publisherClientID topicName
  if subscriptions = [] then none
  else
    let chosen := chooseRetainedSubscriptionOptions subscriptions
    if chosen.1.set then some chosen else none

def sanitizeSubscriptionIdentifiers (subIDs : List Int) : List Int :=
  subIDs.filter fun id =>
    decide ((mqtt5SubscriptionIdentifierMin : Int) ≤ id ∧ id ≤ mqtt5SubscriptionIdentifierMax)

/-- The options with which the packet is sent; a negative QoS counts as zero. -/
def RetainedSubscriptionWinner.sendOptions (winner : RetainedSubscriptionWinner)
    (packetID : PacketID) : SendOptions where
  retainAsPublished := winner.rap
  qos := (if winner.qos < 0 then 0 else winner.qos).toNat
  packetID := packetID

def retainedPublish (validUTF8 : List UInt8 → Bool) (center : MemorySubCenter)
    (clientID : ClientID) (message : RetainMessage) (packetID : PacketID) (readAt now : Int) :
    Option (Publish × List Int) :=
  match getRetainedMessageSubscriptionOptions center clientID message.publisherClientID
      message.topic with
  | none => none
  | some (winner, subIDs) =>
    (sendRetainedForTopic validUTF8 message (winner.sendOptions packetID) readAt now).map
      fun publish => (publish, sanitizeSubscriptionIdentifiers subIDs)

/-! ## The two loops -/

/-- The router's winner without the option it alone keeps. -/
def RetainedSubscriptionWinner.ofWinnerState (winner : WinnerState) :
    RetainedSubscriptionWinner where
  qos := winner.qos
  rap := winner.rap
  filter := winner.filter
  wildcardCnt := winner.wildcardCnt
  depth := winner.depth
  set := winner.set

theorem chooseRetainedSubscriptionOptions_eq (subs : List MatchedSubscription) :
    chooseRetainedSubscriptionOptions subs =
      ((subs.argmin rank).elim {} .update, positiveIDs subs) := by
  have hs (state : WinnerState × List Int) (sub : MatchedSubscription) :
      chooseNext (.ofWinnerState state.1, state.2) sub =
        (.ofWinnerState (selectNext state sub).1, (selectNext state sub).2) := by
    have hr : (RetainedSubscriptionWinner.ofWinnerState state.1).better sub =
        shouldReplaceWinner sub state.1 := rfl
    rw [chooseNext, selectNext, hr]
    refine Prod.ext ?_ ?_
    · dsimp only
      split <;> rfl
    · dsimp only
      split <;> split <;> first | rfl | omega
  have hc : chooseRetainedSubscriptionOptions subs = (.ofWinnerState (selectWinnerAndSubIDs subs).1,
        (selectWinnerAndSubIDs subs).2) :=
    @foldl_hom _ _ _ (fun state : WinnerState × List Int =>
      (RetainedSubscriptionWinner.ofWinnerState state.1, state.2)) _ _ subs ({}, []) hs
  rw [hc, selectWinnerAndSubIDs_eq]
  cases subs.argmin rank <;> rfl

theorem getRetainedMessageSubscriptionOptions_eq_some {cen : MemorySubCenter}
    {cid pcid : ClientID} {name : String}
    {winner : RetainedSubscriptionWinner} {subIDs : List Int} :
    getRetainedMessageSubscriptionOptions cen cid pcid name = some (winner, subIDs) ↔
      ∃ best, (retainedMatchesForClient cen cid pcid name).argmin rank =
          some best ∧ winner = .update best ∧
        subIDs = positiveIDs (retainedMatchesForClient cen cid pcid name) := by
  simp only [getRetainedMessageSubscriptionOptions, chooseRetainedSubscriptionOptions_eq]
  generalize retainedMatchesForClient cen cid pcid name = subs
  cases hl : subs.argmin rank with
  | none => simp [argmin_eq_none.mp hl]
  | some best =>
    have hf : subs ≠ [] := by
      rintro rfl
      cases hl
    simp [hf, RetainedSubscriptionWinner.update, eq_comm]

/-! ## The matches of a client -/

def Reaches (center : MemorySubCenter) (clientID publisherClientID : ClientID) (topicName : String)
    (option : SubOption) : Prop :=
  center.Stores clientID option ∧ MemorySubCenter.Walked option.topic topicName ∧
    ¬(publisherClientID ≠ "" ∧ publisherClientID = clientID ∧ option.noLocal = true)

section Matches

variable {cen : MemorySubCenter} {cid pcid : ClientID} {name : String}

theorem mem_retainedMatches_iff (agree : ShardsAgree cen.shards) (hn : name ≠ "")
    (hp : hasWildcard name = false) {subscription : MatchedSubscription} :
    subscription ∈ retainedMatchesForClient cen cid pcid name ↔
      ∃ option, Reaches cen cid pcid name option ∧
        subscription = matchedSubscriptionFromOption option := by
  have hl := getAllMatchClientV2_wellListed agree name
  have mems : subscription ∈ retainedMatchesForClient cen cid pcid name ↔
      (cid, subscription) ∈ returned (cen.getAllMatchClientV2 name) ∧
        excludedByNoLocal cid pcid subscription = false := by
    unfold retainedMatchesForClient returned
    cases hf : (cen.getAllMatchClientV2 name).find? fun client => client.clientID = cid with
    | none =>
      have ha : ∀ client ∈ cen.getAllMatchClientV2 name, client.clientID ≠ cid := by
        simpa using find?_eq_none.mp hf
      constructor
      · intro hm
        cases hm
      · rintro ⟨hm, -⟩
        obtain ⟨client, hi, matched⟩ := mem_flatMap.mp hm
        obtain ⟨_, -, pair⟩ := mem_map.mp matched
        exact absurd (Prod.mk.inj pair).1 (ha client hi)
    | some client =>
      have hi := mem_of_find?_eq_some hf
      obtain rfl : client.clientID = cid := by simpa using find?_some hf
      have own : (client.clientID, subscription) ∈ (cen.getAllMatchClientV2 name).flatMap
          (fun client => client.matched.map fun subscription => (client.clientID, subscription)) ↔
          subscription ∈ client.matched := by
        constructor
        · intro hm
          obtain ⟨other, inside', matched⟩ := mem_flatMap.mp hm
          obtain ⟨_, mine, pair⟩ := mem_map.mp matched
          obtain ⟨cidEq, rfl⟩ := Prod.mk.inj pair
          rwa [inj_on_of_nodup_map hl.clients inside' hi cidEq] at mine
        · intro mine
          exact mem_flatMap.mpr ⟨client, hi, mem_map_of_mem mine⟩
      rw [own]
      simp [filterNoLocalRetainedMatches, filterNoLocalMatches]
  rw [mems, MemorySubCenter.mem_returned_iff agree hn hp]
  constructor
  · rintro ⟨⟨option, hs, hw, rfl⟩, hk⟩
    refine ⟨option, ⟨hs, hw, ?_⟩, rfl⟩
    rintro ⟨known, rfl, noLocal⟩
    simp [excludedByNoLocal, matchedSubscriptionFromOption, known, noLocal] at hk
  · rintro ⟨option, ⟨hs, hw, hk⟩, rfl⟩
    refine ⟨⟨option, hs, hw, rfl⟩, ?_⟩
    simpa [excludedByNoLocal, matchedSubscriptionFromOption] using hk

theorem eligible_eq (agree : ShardsAgree cen.shards) :
    eligible (cen.getAllMatchClientV2 name) pcid cid =
      (retainedMatchesForClient cen cid pcid name).filter
        fun sub => !isSharedSubscription sub.topicFilter := by
  have hl := getAllMatchClientV2_wellListed agree name
  unfold retainedMatchesForClient
  cases hf : (cen.getAllMatchClientV2 name).find? fun client => client.clientID = cid with
  | none =>
    have ha : ∀ client ∈ cen.getAllMatchClientV2 name, client.clientID ≠ cid := by
      simpa using find?_eq_none.mp hf
    refine eligible_of_not_mem (fun hp => ?_) pcid
    obtain ⟨client, hi, he⟩ := mem_map.mp hp
    exact ha client hi he
  | some client =>
    have hi := mem_of_find?_eq_some hf
    obtain rfl : client.clientID = cid := by simpa using find?_some hf
    rw [eligible_of_mem hl.clients hi]
    simp [planned, splitMatches, filterNoLocalRetainedMatches, filterNoLocalMatches,
      filter_filter, Bool.and_comm]

end Matches

/-! ## Main result -/

/-- Every retained PUBLISH that the client gets for the topic has a plan of the router, with the
same QoS and the same subscription identifiers. -/
def AgreesWithRouter (validUTF8 : List UInt8 → Bool) (center : MemorySubCenter)
    (clientID publisherClientID : ClientID) (topicName : String) : Prop :=
  ∀ message packetID readAt now served publish subIDs, message.topic = topicName →
    message.publisherClientID = publisherClientID →
    getRetainMessage message readAt now = some served → served.qos ≤ 2 →
    retainedPublish validUTF8 center clientID message packetID readAt now = some (publish, subIDs) →
    ∃ plan ∈ (route center served publisherClientID).plans, plan.clientID = clientID ∧
      (publish.qos : Int) = plan.deliveryQoS ∧
      ∀ id, id ∈ subIDs ↔ id ∈ sanitizeSubscriptionIdentifiers plan.subscriptionIDs

def Covered (center : MemorySubCenter) (clientID publisherClientID : ClientID)
    (topicName : String) : Prop :=
  ∀ option, Reaches center clientID publisherClientID topicName option →
    clientID ≠ "" ∧
      (∃ ordinary, Reaches center clientID publisherClientID topicName ordinary ∧
        isSharedSubscription ordinary.topic = false ∧ 0 ≤ ordinary.qos ∧
        min option.qos 2 ≤ ordinary.qos) ∧
      (1 ≤ option.subscriptionIdentifier → option.subscriptionIdentifier ≤ 268435455 →
        ∃ ordinary, Reaches center clientID publisherClientID topicName ordinary ∧
          isSharedSubscription ordinary.topic = false ∧
          ordinary.subscriptionIdentifier = option.subscriptionIdentifier)

theorem mem_sanitize_positiveIDs {subs : List MatchedSubscription} {id : Int} :
    id ∈ sanitizeSubscriptionIdentifiers (positiveIDs subs) ↔ (1 ≤ id ∧ id ≤ 268435455) ∧
        ∃ sub ∈ subs, sub.subscriptionIdentifier = id := by
  have hr : ((mqtt5SubscriptionIdentifierMin : Int) ≤ id ∧
      id ≤ mqtt5SubscriptionIdentifierMax) ↔ 1 ≤ id ∧ id ≤ 268435455 := Iff.rfl
  simp only [sanitizeSubscriptionIdentifiers, positiveIDs, mem_filter, mem_map,
    decide_eq_true_eq, hr]
  constructor
  · rintro ⟨⟨hf, -⟩, hi⟩
    exact ⟨hi, hf⟩
  · rintro ⟨hi, hf⟩
    exact ⟨⟨hf, by omega⟩, hi⟩

theorem served_of_getRetainMessage {msg : RetainMessage} {readAt now : Int} {served : Publish}
    (hr : getRetainMessage msg readAt now = some served) :
    served.topic = msg.topic ∧ served.retain = true := by
  unfold getRetainMessage publishFromRetainMessage applyRetainedMessageExpiry at hr
  split at hr
  · cases hr
  · split at hr
    · cases hr
    · split at hr
      · cases hr
      · split at hr
        · cases hr
          exact ⟨rfl, rfl⟩
        · split at hr
          · cases hr
          · split at hr
            · cases hr
            · cases hr
              exact ⟨rfl, rfl⟩

theorem sendRetainedForTopic_eq_some {validUTF8 : List UInt8 → Bool} {msg : RetainMessage}
    {opts : SendOptions} {readAt now : Int} {served pub : Publish}
    (hr : getRetainMessage msg readAt now = some served)
    (hs : sendRetainedForTopic validUTF8 msg opts readAt now = some pub) :
    pub.qos = min served.qos opts.qos ∧ pub.retain = (opts.retainAsPublished && served.retain) := by
  unfold sendRetainedForTopic at hs
  rw [hr] at hs
  dsimp only at hs
  split at hs
  · cases hs
  · cases hs
    refine ⟨by simp, ?_⟩
    unfold applyRetainAsPublished
    cases opts.retainAsPublished <;> rfl

theorem retainedPublish_eq_some {validUTF8 : List UInt8 → Bool} {cen : MemorySubCenter}
    {cid : ClientID} {msg : RetainMessage} {pid : PacketID} {readAt now : Int}
    {served pub : Publish} {subIDs : List Int}
    (hr : getRetainMessage msg readAt now = some served)
    (hs : retainedPublish validUTF8 cen cid msg pid readAt now = some (pub, subIDs)) :
    ∃ best, (retainedMatchesForClient cen cid msg.publisherClientID
        msg.topic).argmin rank = some best ∧
      (pub.qos : Int) = min (served.qos : Int) (max best.qos 0) ∧
      pub.retain = (best.retainAsPublished && served.retain) ∧
      subIDs = sanitizeSubscriptionIdentifiers (positiveIDs
        (retainedMatchesForClient cen cid msg.publisherClientID msg.topic)) := by
  unfold retainedPublish at hs
  split at hs
  · cases hs
  · rename_i ho
    obtain ⟨best, hl, rfl, rfl⟩ := getRetainedMessageSubscriptionOptions_eq_some.mp ho
    obtain ⟨packet, hw, hp⟩ := Option.map_eq_some_iff.mp hs
    obtain ⟨rfl, rfl⟩ := Prod.mk.inj hp
    obtain ⟨qos, retain⟩ := sendRetainedForTopic_eq_some hr hw
    refine ⟨best, hl, ?_, retain, rfl⟩
    have cap : ((RetainedSubscriptionWinner.update best).sendOptions pid).qos =
        (max best.qos 0).toNat := by
      change (if best.qos < 0 then 0 else best.qos).toNat = _
      split <;> omega
    rw [qos, cap]
    omega

def probe (topicName : String) (publisherClientID : ClientID) : RetainMessage :=
  newRetainMessageFromPublish { topic := topicName, payload := [], qos := 2 } 0 publisherClientID

theorem getRetainMessage_probe {name : String} (hn : name ≠ "") (pcid : ClientID) :
    getRetainMessage (probe name pcid) 0 0 =
      some { topic := name, payload := [], qos := 2, retain := true } := by
  have hk : publishFromRetainMessage (probe name pcid) 0 = _ := if_neg hn
  exact hk

theorem retainedPublish_probe {validUTF8 : List UInt8 → Bool} {cen : MemorySubCenter}
    {cid pcid : ClientID} {name : String} (hn : name ≠ "")
    (hf : retainedMatchesForClient cen cid pcid name ≠ []) :
    ∃ pub subIDs, retainedPublish validUTF8 cen cid (probe name pcid)
      0 0 0 = some (pub, subIDs) := by
  cases hl : (retainedMatchesForClient cen cid pcid name).argmin rank with
  | none => exact absurd (argmin_eq_none.mp hl) hf
  | some best =>
    have hc : getRetainedMessageSubscriptionOptions cen cid (probe name pcid).publisherClientID
        (probe name pcid).topic = some _ :=
      getRetainedMessageSubscriptionOptions_eq_some.mpr ⟨best, hl, rfl, rfl⟩
    have format (pub : Publish) (hp : pub.properties = {}) :
        outboundPayloadFormatInvalid validUTF8 pub = false := by
      simp [outboundPayloadFormatInvalid, hp]
    rw [retainedPublish, hc]
    dsimp only
    rw [sendRetainedForTopic, getRetainMessage_probe hn]
    dsimp only
    rw [format _ (by simp)]
    exact ⟨_, _, rfl⟩

theorem mem_eligible_iff {cen : MemorySubCenter} {cid pcid : ClientID}
    {name : String} (ha : ShardsAgree cen.shards) (hn : name ≠ "")
    (hp : hasWildcard name = false) {subscription : MatchedSubscription} :
    subscription ∈ eligible (cen.getAllMatchClientV2 name) pcid cid ↔
      ∃ option, Reaches cen cid pcid name option ∧ isSharedSubscription option.topic = false ∧
        subscription = matchedSubscriptionFromOption option := by
  rw [eligible_eq ha, mem_filter, mem_retainedMatches_iff ha hn hp]
  constructor
  · rintro ⟨⟨option, hr, rfl⟩, ho⟩
    exact ⟨option, hr, by simpa [matchedSubscriptionFromOption] using ho, rfl⟩
  · rintro ⟨option, hr, ho, rfl⟩
    exact ⟨⟨option, hr, rfl⟩, by simpa [matchedSubscriptionFromOption] using ho⟩

/-- The retained path agrees with the router exactly where the client's matches are covered by
its ordinary ones. -/
theorem agreesWithRouter_iff {center : MemorySubCenter} (reachable : center.Reachable)
    {topicName : String} (named : topicName ≠ "") (plain : hasWildcard topicName = false)
    (validUTF8 : List UInt8 → Bool) (clientID publisherClientID : ClientID) :
    AgreesWithRouter validUTF8 center clientID publisherClientID topicName ↔
      Covered center clientID publisherClientID topicName := by
  have agree := reachable.agree
  have hl := getAllMatchClientV2_wellListed agree topicName
  have mems {subscription : MatchedSubscription} :=
    @mem_retainedMatches_iff _ clientID publisherClientID _ agree named plain subscription
  have ordinary {subscription : MatchedSubscription} :=
    @mem_eligible_iff _ clientID publisherClientID _ agree named plain subscription
  constructor
  · intro ha option meets
    have hm := mems.mpr ⟨option, meets, rfl⟩
    obtain ⟨publish, subIDs, hs⟩ := @retainedPublish_probe validUTF8 center clientID
      publisherClientID topicName named (ne_nil_of_mem hm)
    obtain ⟨best, hle, qos, -, rfl⟩ :=
      retainedPublish_eq_some (getRetainMessage_probe named publisherClientID) hs
    obtain ⟨plan, planned, rfl, cap, he⟩ := ha _ 0 0 0 _ publish _ rfl rfl
      (getRetainMessage_probe named publisherClientID) (Nat.le_refl 2) hs
    obtain ⟨hk, -⟩ := (exists_plan_iff _ publisherClientID hl plan.clientID).mp ⟨plan, planned, rfl⟩
    have meets' := planMeets_of_mem _ publisherClientID hl planned
    refine ⟨hk, ?_, fun hp bound => ?_⟩
    · obtain ⟨top, maximum, hd⟩ := meets'.qos
      obtain ⟨hi, -⟩ := maximum_eq_coe_iff.mp maximum
      obtain ⟨subscription, able, rfl⟩ := mem_map.mp hi
      obtain ⟨other, reachesOther, hu, rfl⟩ := ordinary.mp able
      have hb := qos_le_of_rank_le (le_of_mem_argmin hm hle)
      change option.qos ≤ best.qos at hb
      change plan.deliveryQoS = min ((2 : Nat) : Int) other.qos at hd
      change (publish.qos : Int) = min ((2 : Nat) : Int) (max best.qos 0) at qos
      exact ⟨other, reachesOther, hu, by omega, by omega⟩
    · have hc := (he option.subscriptionIdentifier).mp
        (mem_sanitize_positiveIDs.mpr ⟨⟨hp, bound⟩, _, hm, rfl⟩)
      have listedID := (meets'.identifiers.filter _).mem_iff.mp hc
      obtain ⟨-, subscription, able, idEq⟩ := mem_sanitize_positiveIDs.mp listedID
      obtain ⟨other, reachesOther, hu, rfl⟩ := ordinary.mp able
      exact ⟨other, reachesOther, hu, idEq⟩
  · intro cover message packetID readAt now served publish subIDs ht pub hr small hs
    subst ht pub
    obtain ⟨best, hle, qos, -, rfl⟩ := retainedPublish_eq_some hr hs
    obtain ⟨option, meets, rfl⟩ := mems.mp (argmin_mem hle)
    obtain ⟨hk, ⟨other, reachesOther, hu, hn, hh⟩, -⟩ := cover option meets
    have able := ordinary.mpr ⟨other, reachesOther, hu, rfl⟩
    have ht : served.topic = message.topic := (served_of_getRetainMessage hr).1
    obtain ⟨plan, planned, rfl⟩ := (exists_plan_iff served message.publisherClientID hl
      clientID).mpr ⟨hk, ne_nil_of_mem able⟩
    have meets' := planMeets_of_mem served message.publisherClientID hl planned
    refine ⟨plan, by rwa [route, ht], rfl, ?_, fun id => ?_⟩
    · obtain ⟨top, maximum, hd⟩ := meets'.qos
      obtain ⟨hi, upper⟩ := maximum_eq_coe_iff.mp maximum
      obtain ⟨subscription, inAble, rfl⟩ := mem_map.mp hi
      obtain ⟨winner, meetsW, -, rfl⟩ := ordinary.mp inAble
      have above := upper _ (mem_map_of_mem able)
      have hb := qos_le_of_rank_le (le_of_mem_argmin (mems.mpr ⟨winner, meetsW, rfl⟩) hle)
      change other.qos ≤ winner.qos at above
      change winner.qos ≤ option.qos at hb
      change plan.deliveryQoS = min (served.qos : Int) winner.qos at hd
      change (publish.qos : Int) = min (served.qos : Int) (max option.qos 0) at qos
      omega
    · have idsEq := (meets'.identifiers.filter fun id =>
        decide ((mqtt5SubscriptionIdentifierMin : Int) ≤ id ∧
          id ≤ mqtt5SubscriptionIdentifierMax)).mem_iff (a := id)
      rw [sanitizeSubscriptionIdentifiers, sanitizeSubscriptionIdentifiers, idsEq]
      refine mem_sanitize_positiveIDs.trans (Iff.trans ?_ mem_sanitize_positiveIDs.symm)
      refine and_congr_right fun range => ?_
      constructor
      · rintro ⟨subscription, hm, rfl⟩
        obtain ⟨option, meets, rfl⟩ := mems.mp hm
        obtain ⟨other, reachesOther, hu, idEq⟩ := (cover option meets).2.2 range.1 range.2
        exact ⟨_, ordinary.mpr ⟨other, reachesOther, hu, rfl⟩, idEq⟩
      · rintro ⟨subscription, inAble, rfl⟩
        obtain ⟨option, meets, -, rfl⟩ := ordinary.mp inAble
        exact ⟨_, mems.mpr ⟨option, meets, rfl⟩, rfl⟩

def ordinaryAndShared (ordinaryQoS : Int) : List Subscription.Operation :=
  [.createSub "alice" "" [{ topic := "a", qos := ordinaryQoS, subscriptionIdentifier := 3 },
    { topic := "$share/g/a", qos := 1, subscriptionIdentifier := 3 }]]

/-- A shared subscription that adds neither QoS nor identifier. -/
theorem agreesWithRouter_covered : ∃ center : MemorySubCenter, center.Reachable ∧
      AgreesWithRouter (fun _ => true) center "alice" "bob" "a" := by
  have ran : ∃ center : MemorySubCenter, center.Reachable ∧
      retainedMatchesForClient center "alice" "bob" "a" =
        [⟨"a", 2, false, false, 0, 3⟩, ⟨"$share/g/a", 1, false, false, 0, 3⟩] :=
    ⟨_, ⟨ordinaryAndShared 2, rfl⟩, by decide⟩
  obtain ⟨center, hr, ha⟩ := ran
  have hm {subscription : MatchedSubscription} := @mem_retainedMatches_iff _ "alice" "bob" "a"
    hr.agree (by decide) (by decide) subscription
  rw [ha] at hm
  refine ⟨center, hr,
    (agreesWithRouter_iff hr (by decide) (by decide) _ _ _).mpr fun option meets => ?_⟩
  obtain ⟨ordinary, meets', he⟩ := hm.mp mem_cons_self
  simp only [matchedSubscriptionFromOption, MatchedSubscription.mk.injEq] at he
  obtain ⟨ht, qos, -, -, -, hi⟩ := he
  have hu : isSharedSubscription ordinary.topic = false := by
    rw [← ht]
    decide
  have hl := hm.mpr ⟨option, meets, rfl⟩
  simp only [matchedSubscriptionFromOption, mem_cons, MatchedSubscription.mk.injEq,
    not_mem_nil, or_false] at hl
  refine ⟨by decide, ⟨ordinary, meets', hu, by omega, by omega⟩, fun _ _ => ?_⟩
  exact ⟨ordinary, meets', hu, by omega⟩

/-- The shared subscription's QoS is used, while the router's plan has the ordinary one's. -/
theorem shared_match_raises_qos : ∃ center : MemorySubCenter, center.Reachable ∧
      (retainedPublish (fun _ => true) center "alice" (probe "a" "bob") 7 0 0).map
        (fun sent => sent.1.qos) = some 1 ∧
      (route center { topic := "a", payload := [], qos := 2, retain := true } "bob").plans.map
        (fun plan => (plan.clientID, plan.deliveryQoS)) = [("alice", 0)] := by
  exact ⟨_, ⟨ordinaryAndShared 0, rfl⟩, by decide, by decide⟩

end SkyTree.Client
