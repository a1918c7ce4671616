import SkyTree.Delivery.ShareGroupTasks
import SkyTree.Session.Center
import SkyTree.SharedSubscription.Store

/-!
# Choosing a member

The consumer of a share group asks the subscription center for the members of a filter,
the session center for the nodes that own their sessions, and the subscription center
again for the options of the member it selects.
-/

namespace SkyTree.SharedSubscription

open Foundation Session Subscription Delivery

structure ShareGroupMember where
  clientID : ClientID
  topicFilter : String
  deriving DecidableEq, Repr

structure OnlineShareGroupMember where
  shareGroup : String
  clientID : ClientID
  topicFilter : String
  ownerNodeID : Nat
  deriving DecidableEq, Repr

structure SessionOwnerItem where
  clientID : ClientID
  exist : Bool
  owner : Option SessionOwner

/-- The interfaces the strategy is built from; the last two may be absent. -/
structure SharedDeliveryStrategy where
  getShareGroupMembers : String → Except String (List ShareGroupMember)
  getClientSubscriptions : ClientID → Except String ClientSubTopic
  getSessionOwners : Option (List ClientID → Except String (List SessionOwnerItem))
  readClient : Option (ClientID → Bool)

namespace SharedDeliveryStrategy

variable (strategy : SharedDeliveryStrategy)

/-! ## Members that are online -/

/-- Without a session center every client that is registered here counts as local. -/
def localOwnerNode (nodes : Assoc ClientID Nat) (clientID : ClientID) : Assoc ClientID Nat :=
  if clientID = "" then nodes
  else
    match strategy.readClient with
    | none => Assoc.set nodes clientID 0
    | some registered => if registered clientID then Assoc.set nodes clientID 0 else nodes

def addOwnerNode (nodes : Assoc ClientID Nat) (item : SessionOwnerItem) : Assoc ClientID Nat :=
  match item.owner with
  | none => nodes
  | some owner =>
    if item.exist ∧ item.clientID ≠ "" ∧ owner.online then
      Assoc.set nodes item.clientID owner.nodeID
    else nodes

def resolveOnlineOwnerNodes (clientIDs : List ClientID) : Except String (Assoc ClientID Nat) :=
  if clientIDs = [] then .ok .empty
  else
    match strategy.getSessionOwners with
    | none => .ok (clientIDs.foldl strategy.localOwnerNode .empty)
    | some owners =>
      match owners clientIDs with
      | .error err => .error err
      | .ok items => .ok (items.foldl addOwnerNode .empty)

def onlineCandidates (shareGroup topicFilter : String) :
    Except String (List OnlineShareGroupMember) :=
  if shareGroup = "" then .ok []
  else
    match strategy.getShareGroupMembers shareGroup with
    | .error err => .error err
    | .ok members =>
      let matched := members.filter fun member =>
        member.clientID ≠ "" ∧ (topicFilter = "" ∨ member.topicFilter = topicFilter)
      match strategy.resolveOnlineOwnerNodes (matched.map ShareGroupMember.clientID) with
      | .error err => .error err
      | .ok ownerNodes => .ok (matched.filterMap fun member =>
        (ownerNodes.lookup member.clientID).map fun ownerNodeID =>
          { shareGroup := shareGroup, clientID := member.clientID
            topicFilter := member.topicFilter, ownerNodeID := ownerNodeID })

end SharedDeliveryStrategy

/-! ## The options of a member -/

structure ResolveClientOptionsCommand where
  shareGroup : String
  topicFilter : String
  publisherClient : ClientID
  publishQoS : Int
  clientID : ClientID

structure ResolvedClientOptions where
  deliveryQoS : Int
  subscriptionIDs : List Int
  noLocal : Bool
  rap : Bool
  deriving DecidableEq, Repr

structure BestOption where
  qos : Int := -1
  noLocal : Bool := false
  rap : Bool := true
  subIDs : List Int := []

/-- A subscription of higher QoS wins; every positive identifier is kept. -/
def BestOption.add (best : BestOption) (sub : SubOption) : BestOption :=
  let winner := if sub.qos > best.qos then
    { best with qos := sub.qos, noLocal := sub.noLocal, rap := sub.retainAsPublished } else best
  { winner with
    subIDs := if sub.subscriptionIdentifier > 0 then best.subIDs ++ [sub.subscriptionIdentifier]
      else best.subIDs }

/-- One subscription of the member; only those of the group's filter count. -/
def BestOption.consider (cmd : ResolveClientOptionsCommand) (best : BestOption) (sub : SubOption) :
    BestOption :=
  if Router.isSharedSubscription sub.topic = false then best
  else
    match Router.parseSharedSubscription sub.topic with
    | .error _ => best
    | .ok (shareGroup, actualTopicFilter) =>
      if shareGroup ≠ cmd.shareGroup ∨ actualTopicFilter ≠ cmd.topicFilter then best
      else if cmd.publisherClient ≠ "" ∧ cmd.publisherClient = cmd.clientID ∧ sub.noLocal then best
      else best.add sub

namespace SharedDeliveryStrategy

variable (strategy : SharedDeliveryStrategy)

/-- No answer for a member without a subscription to the group's filter. -/
def resolveClientOptions (cmd : ResolveClientOptionsCommand) :
    Except String (Option ResolvedClientOptions) :=
  if cmd.clientID = "" ∨ cmd.shareGroup = "" ∨ cmd.topicFilter = "" then .ok none
  else
    match strategy.getClientSubscriptions cmd.clientID with
    | .error err => .error err
    | .ok topics =>
      let best := topics.entries.foldl (BestOption.consider cmd) {}
      if best.qos < 0 then .ok none
      else .ok (some
        { deliveryQoS :=
            if cmd.publishQoS ≥ 0 ∧ best.qos > cmd.publishQoS then cmd.publishQoS else best.qos
          subscriptionIDs := best.subIDs
          noLocal := best.noLocal
          rap := best.rap })

def grantedQoS (clientID : ClientID) (shareGroup topicFilter : String) : Option Int :=
  match strategy.getClientSubscriptions clientID with
  | .error _ => none
  | .ok topics =>
    (topics.get (Router.buildSharedSubscriptionTopicFilter shareGroup topicFilter)).map
      SubOption.qos

end SharedDeliveryStrategy

theorem BestOption.add_qos (best : BestOption) (sub : SubOption) :
    (best.add sub).qos = best.qos ∨ (best.add sub).qos = sub.qos := by
  unfold add
  by_cases hb : sub.qos > best.qos
  · exact .inr (by simp [hb])
  · exact .inl (by simp [hb])

theorem BestOption.consider_qos (cmd : ResolveClientOptionsCommand) (best : BestOption)
    (sub : SubOption) :
    (best.consider cmd sub).qos = best.qos ∨
      (sub.topic = Router.buildSharedSubscriptionTopicFilter cmd.shareGroup cmd.topicFilter ∧
        (best.consider cmd sub).qos = sub.qos) := by
  unfold consider
  split
  next => exact .inl rfl
  next =>
    split
    next => exact .inl rfl
    next grp actualTopicFilter hp =>
      split_ifs with ho he
      · exact .inl rfl
      · exact .inl rfl
      · rw [not_or, not_not, not_not] at ho
        obtain ⟨rfl, rfl⟩ := ho
        exact (best.add_qos sub).imp_right fun qos =>
          ⟨Router.eq_build_of_parseSharedSubscription hp, qos⟩

theorem BestOption.foldl_consider_qos (cmd : ResolveClientOptionsCommand) (subs : List SubOption)
    (best : BestOption) :
    (subs.foldl (consider cmd) best).qos = best.qos ∨ ∃ sub ∈ subs,
        sub.topic = Router.buildSharedSubscriptionTopicFilter cmd.shareGroup cmd.topicFilter ∧
          (subs.foldl (consider cmd) best).qos = sub.qos := by
  induction subs generalizing best with
  | nil => exact .inl rfl
  | cons sub rest ih =>
    rw [List.foldl_cons]
    rcases ih (best.consider cmd sub) with he | ⟨later, hm, ht, qos⟩
    · rcases best.consider_qos cmd sub with hu | ⟨ht, qos⟩
      · exact .inl (he.trans hu)
      · exact .inr ⟨sub, List.mem_cons_self, ht, he.trans qos⟩
    · exact .inr ⟨later, List.mem_cons_of_mem _ hm, ht, qos⟩

theorem capped_eq_min (publishQoS granted : Int) :
    (if publishQoS ≥ 0 ∧ granted > publishQoS then publishQoS else granted) =
      if 0 ≤ publishQoS then min publishQoS granted else granted := by
  by_cases hk : 0 ≤ publishQoS
  · by_cases ha : publishQoS < granted
    · simp [hk, ha, min_eq_left ha.le]
    · simp [hk, ha, min_eq_right (not_lt.mp ha)]
  · simp [hk]

theorem SharedDeliveryStrategy.resolveClientOptions_qos {strategy : SharedDeliveryStrategy}
    {cmd : ResolveClientOptionsCommand} {res : ResolvedClientOptions}
    (ha : strategy.resolveClientOptions cmd = .ok (some res)) :
    ∃ granted, strategy.grantedQoS cmd.clientID cmd.shareGroup cmd.topicFilter = some granted ∧
      0 ≤ granted ∧
      res.deliveryQoS = if 0 ≤ cmd.publishQoS then min cmd.publishQoS granted else granted := by
  unfold resolveClientOptions at ha
  split at ha
  next => cases ha
  next =>
    cases hs : strategy.getClientSubscriptions cmd.clientID with
    | error err =>
      rw [hs] at ha
      cases ha
    | ok topics =>
      rw [hs] at ha
      dsimp only at ha
      split at ha
      next => cases ha
      next found =>
        obtain rfl := Option.some.inj (Except.ok.inj ha)
        rcases BestOption.foldl_consider_qos cmd topics.entries {} with
          hn | ⟨sub, hm, ht, qos⟩
        · exact absurd (hn ▸ by decide) found
        · rw [qos] at found
          refine ⟨sub.qos, ?_, not_lt.mp found, ?_⟩
          · simp [grantedQoS, hs, KeyedTable.get_eq_some_iff.mpr ⟨hm, ht⟩]
          · dsimp only
            rw [qos]
            exact capped_eq_min cmd.publishQoS sub.qos

end SkyTree.SharedSubscription
