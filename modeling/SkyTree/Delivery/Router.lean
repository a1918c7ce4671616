import SkyTree.Subscription.Matching

/-!
# Routing a publish

`Route` turns the matches of the subscription center into one plan per client, from
its ordinary subscriptions, and one task per share group and filter, from the shared
ones. Both take their options from a winning subscription.
-/

namespace SkyTree.Delivery.Router

open Foundation Subscription

/-- The subscription identifiers are the numbers of the JSON array of the source. -/
structure ClientPlan where
  clientID : ClientID
  deliveryQoS : Int
  subscriptionIDs : List Int
  winnerNoLocal : Bool
  winnerRAP : Bool
  deriving DecidableEq, Repr

structure ShareGroupTask where
  shareGroup : String
  topicFilter : String
  deliveryQoS : Int
  publishQoS : Int
  publisherClient : ClientID
  subscriptionIDs : List Int
  winnerNoLocal : Bool
  winnerRAP : Bool
  deriving DecidableEq, Repr

structure RouteResult where
  plans : List ClientPlan
  shareGroupTasks : List ShareGroupTask
  deriving DecidableEq, Repr

/-! ## Comparing subscriptions -/

/-- The number of wildcard characters and the number of levels. -/
def wildcardMetrics (filter : String) : Nat × Nat :=
  (filter.toList.countP fun char => char = '+' || char = '#',
    if filter = "" then 0 else 1 + filter.toList.countP fun char => char = '/')

def isBetterWinner (subscription : MatchedSubscription) :
    Option MatchedSubscription → Bool
  | none => true
  | some currentWinner =>
    if subscription.qos ≠ currentWinner.qos then subscription.qos > currentWinner.qos
    else
      let (wildcards, depth) := wildcardMetrics subscription.topicFilter
      let (currentWildcards, currentDepth) := wildcardMetrics currentWinner.topicFilter
      if wildcards ≠ currentWildcards then wildcards < currentWildcards
      else if depth ≠ currentDepth then depth > currentDepth
      else subscription.topicFilter.toList < currentWinner.topicFilter.toList

structure WinnerState where
  noLocal : Bool := false
  rap : Bool := true
  qos : Int := 0
  wildcardCnt : Nat := 0
  depth : Nat := 0
  filter : String := ""
  set : Bool := false

def shouldReplaceWinner (subscription : MatchedSubscription) (winner : WinnerState) : Bool :=
  if winner.set = false then true
  else if subscription.qos ≠ winner.qos then subscription.qos > winner.qos
  else
    let (wildcards, depth) := wildcardMetrics subscription.topicFilter
    if wildcards ≠ winner.wildcardCnt then wildcards < winner.wildcardCnt
    else if depth ≠ winner.depth then depth > winner.depth
    else subscription.topicFilter.toList < winner.filter.toList

def WinnerState.ofSubscription (subscription : MatchedSubscription) : WinnerState where
  noLocal := subscription.noLocal
  rap := subscription.retainAsPublished
  qos := subscription.qos
  wildcardCnt := (wildcardMetrics subscription.topicFilter).1
  depth := (wildcardMetrics subscription.topicFilter).2
  filter := subscription.topicFilter
  set := true

def selectNext (state : WinnerState × List Int) (subscription : MatchedSubscription) :
    WinnerState × List Int :=
  (if shouldReplaceWinner subscription state.1 then .ofSubscription subscription else state.1,
    if subscription.subscriptionIdentifier ≤ 0 then state.2
    else state.2 ++ [subscription.subscriptionIdentifier])

def selectWinnerAndSubIDs (normalMatches : List MatchedSubscription) : WinnerState × List Int :=
  normalMatches.foldl selectNext ({}, [])

/-! ## Plans -/

def isSharedSubscription (topicFilter : String) : Bool := startsWith topicFilter "$share/"

def splitMatches (matched : List MatchedSubscription) :
    List MatchedSubscription × List MatchedSubscription :=
  (matched.filter fun subscription => !isSharedSubscription subscription.topicFilter,
    matched.filter fun subscription => isSharedSubscription subscription.topicFilter)

/-- The publisher asked not to receive its own messages. -/
def excludedByNoLocal (clientID publisherClientID : ClientID) (subscription : MatchedSubscription) :
    Bool :=
  publisherClientID ≠ "" && publisherClientID = clientID && subscription.noLocal

def filterNoLocalMatches (subscriptions : List MatchedSubscription)
    (clientID publisherClientID : ClientID) : List MatchedSubscription :=
  subscriptions.filter fun subscription =>
    !excludedByNoLocal clientID publisherClientID subscription

def effectiveQoS (publish : Mqtt.Publish) (granted : Int) : Int :=
  if (publish.qos : Int) < granted then publish.qos else granted

def buildClientPlan (client : ClientMatch) (publish : Mqtt.Publish)
    (normalMatches : List MatchedSubscription) (publisherClientID : ClientID) : Option ClientPlan :=
  if normalMatches = [] then none
  else if client.clientID = "" then none
  else
    let filteredMatches := filterNoLocalMatches normalMatches client.clientID publisherClientID
    if filteredMatches = [] then none
    else
      let (winner, subIDs) := selectWinnerAndSubIDs filteredMatches
      if winner.set = false then none
      else some
        { clientID := client.clientID
          deliveryQoS := effectiveQoS publish winner.qos
          subscriptionIDs := subIDs
          winnerNoLocal := winner.noLocal
          winnerRAP := winner.rap }

/-! ## Share groups -/

def parseSharedSubscription (topicFilter : String) : Except String (String × String) :=
  if isSharedSubscription topicFilter = false then
    .error ("not a shared subscription: " ++ topicFilter)
  else
    let withoutPrefix := String.ofList (topicFilter.toList.drop "$share/".toList.length)
    if withoutPrefix = "" then
      .error "invalid shared subscription format: missing share name"
    else
      match splitTopicLevels withoutPrefix with
      | [] | [_] => .error "invalid shared subscription format: missing topic filter"
      | shareGroup :: levels =>
        let actualTopicFilter := "/".intercalate levels
        if shareGroup = "" then
          .error "invalid shared subscription format: empty share name"
        else if shareGroup.toList.any fun char => char = '+' || char = '#' then
          .error "invalid shared subscription format: share name contains wildcard"
        else if actualTopicFilter = "" then
          .error "invalid shared subscription format: empty topic filter"
        else .ok (shareGroup, actualTopicFilter)

structure ShareAgg where
  shareGroup : String
  topicFilter : String
  winner : Option MatchedSubscription := none
  subIDs : List Int := []

def ShareAgg.add (aggregate : ShareAgg) (subscription : MatchedSubscription) : ShareAgg where
  shareGroup := aggregate.shareGroup
  topicFilter := aggregate.topicFilter
  winner := if isBetterWinner subscription aggregate.winner then some subscription
    else aggregate.winner
  subIDs := if subscription.subscriptionIdentifier > 0 then
    aggregate.subIDs ++ [subscription.subscriptionIdentifier] else aggregate.subIDs

def shareKey (shareGroup actualTopicFilter : String) : String :=
  shareGroup ++ "|" ++ actualTopicFilter

def aggregateSharedMatch (clientID publisherClientID : ClientID)
    (aggregates : Assoc String ShareAgg) (subscription : MatchedSubscription) :
    Assoc String ShareAgg :=
  if excludedByNoLocal clientID publisherClientID subscription then aggregates
  else
    match parseSharedSubscription subscription.topicFilter with
    | .error _ => aggregates
    | .ok (shareGroup, actualTopicFilter) =>
      if shareGroup = "" ∨ actualTopicFilter = "" then aggregates
      else
        let key := shareKey shareGroup actualTopicFilter
        let aggregate := (aggregates.lookup key).getD
          { shareGroup := shareGroup, topicFilter := actualTopicFilter }
        Assoc.set aggregates key (aggregate.add subscription)

def aggregateSharedMatches (clientID : ClientID) (sharedMatches : List MatchedSubscription)
    (aggregates : Assoc String ShareAgg) (publisherClientID : ClientID) : Assoc String ShareAgg :=
  sharedMatches.foldl (aggregateSharedMatch clientID publisherClientID) aggregates

def buildShareGroupTasks (aggregates : Assoc String ShareAgg) (publish : Mqtt.Publish)
    (publisherClientID : ClientID) : List ShareGroupTask :=
  aggregates.entries.filterMap fun entry =>
    match entry.2.winner with
    | none => none
    | some winner =>
      if entry.2.shareGroup = "" ∨ entry.2.topicFilter = "" then none
      else some
        { shareGroup := entry.2.shareGroup
          topicFilter := entry.2.topicFilter
          deliveryQoS := effectiveQoS publish winner.qos
          publishQoS := publish.qos
          publisherClient := publisherClientID
          subscriptionIDs := entry.2.subIDs
          winnerNoLocal := winner.noLocal
          winnerRAP := winner.retainAsPublished }

/-! ## The loop over the clients -/

def routeClient (publish : Mqtt.Publish) (publisherClientID : ClientID)
    (state : Assoc String ShareAgg × List ClientPlan) (client : ClientMatch) :
    Assoc String ShareAgg × List ClientPlan :=
  if client.matched = [] then state
  else
    let (normalMatches, sharedMatches) := splitMatches client.matched
    let aggregates :=
      aggregateSharedMatches client.clientID sharedMatches state.1 publisherClientID
    match buildClientPlan client publish normalMatches publisherClientID with
    | none => (aggregates, state.2)
    | some plan => (aggregates, state.2 ++ [plan])

def routeMatches (clientMatches : List ClientMatch) (publish : Mqtt.Publish)
    (publisherClientID : ClientID) : RouteResult :=
  let (aggregates, plans) := clientMatches.foldl (routeClient publish publisherClientID)
    (.empty, [])
  { plans := plans
    shareGroupTasks := buildShareGroupTasks aggregates publish publisherClientID }

def route (center : MemorySubCenter) (publish : Mqtt.Publish) (publisherClientID : ClientID) :
    RouteResult :=
  routeMatches (center.getAllMatchClientV2 publish.topic) publish publisherClientID

end SkyTree.Delivery.Router
