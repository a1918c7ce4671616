import SkyTree.Subscription.Matching
import SkyTree.Subscription.Operations

/-!
# The reads of the subscription center

A read of one shard looks at its trie or at its client tables. A read of the center asks the
shards that a topic can match, or all of them. The shards and the maps inside a shard are Go
maps, so a read has one answer for every order in which they are visited.
-/

namespace SkyTree.Subscription

open Foundation List

/-! ## Reads of a node -/

namespace TreeNode

def topicSection : TreeNode → String
  | mk topicSection _ _ _ => topicSection

def topic : TreeNode → String
  | mk _ topic _ _ => topic

def nodeMaxQoS (node : TreeNode) : Int :=
  node.client.entries.foldl
    (fun maxQoS entry => if entry.2.qos > maxQoS then entry.2.qos else maxQoS) 0

def ownTopic (topicSection topic : String) : List String :=
  if topic ≠ "" ∧ topicSection ≠ "#" ∧ topicSection ≠ "+" then [topic] else []

mutual

/-- Every filter at or below a node, the ones that end in a wildcard left out. -/
def collectAllTopics : TreeNode → List String
  | mk topicSection topic _ none => ownTopic topicSection topic
  | mk topicSection topic _ (some children) =>
    ownTopic topicSection topic ++ collectChildren children

def collectChildren : List (String × TreeNode) → List String
  | [] => []
  | (_, child) :: rest => collectAllTopics child ++ collectChildren rest

end

/-- The filters a wildcard filter covers. A nil child map ends the search before `#` is looked at;
an empty one does not. -/
def matchForWildcard : List String → TreeNode → List String
  | [], node => if node.topic ≠ "" then [node.topic] else []
  | level :: rest, node =>
    if level = "+" then
      (node.childNode.filter fun child => child.1 ≠ "#" && child.1 ≠ "+").flatMap fun child =>
        matchForWildcard rest child.2
    else if level = "#" then
      match node.childMap with
      | none => []
      | some _ => node.collectAllTopics
    else
      match node.child level with
      | none => []
      | some child => matchForWildcard rest child

/-- The options that the tree shows. -/
def cloneMergedSubOption (option : SubOption) : SubOption where
  topic := option.topic
  qos := option.qos
  retainAsPublished := option.retainAsPublished

def cloneNodeLimited : Nat → TreeNode → TreeNode
  | 0, node =>
    mk node.topicSection node.topic (node.client.mapValues cloneMergedSubOption) (some [])
  | maxDepth + 1, node =>
    mk node.topicSection node.topic (node.client.mapValues cloneMergedSubOption)
      (some (node.childNode.map fun child => (child.1, cloneNodeLimited maxDepth child.2)))

def mergeTreeClient (clients : Assoc ClientID SubOption) (entry : ClientID × SubOption) :
    Assoc ClientID SubOption :=
  match clients.lookup entry.1 with
  | none => Assoc.set clients entry.1 (cloneMergedSubOption entry.2)
  | some old =>
    if entry.2.qos > old.qos then Assoc.set clients entry.1 (cloneMergedSubOption entry.2)
    else clients

def mergeTreeMetadata (dst : TreeNode) (topicSection topic : String)
    (client : Assoc ClientID SubOption) : TreeNode :=
  mk (if dst.topicSection = "" then topicSection else dst.topicSection)
    (if dst.topic = "" then topic else dst.topic)
    (client.entries.foldl mergeTreeClient dst.client) dst.childMap

mutual

def mergeTreeNode (dst : TreeNode) : TreeNode → TreeNode
  | mk topicSection topic client none => dst.mergeTreeMetadata topicSection topic client
  | mk topicSection topic client (some children) =>
    mergeTreeChildren (dst.mergeTreeMetadata topicSection topic client) children

def mergeTreeChildren (dst : TreeNode) : List (String × TreeNode) → TreeNode
  | [] => dst
  | (name, child) :: rest =>
    mergeTreeChildren
      (match dst.child name with
        | some existing => dst.setChild name (mergeTreeNode existing child)
        | none => dst.setChild name child) rest

end

end TreeNode

/-! ## Reads of a shard -/

/-- Fewer wildcards first, then more levels, then the smaller text. -/
def isMoreSpecificFilter (first second : String) : Bool :=
  let wildcards (filter : String) :=
    (splitTopicLevels filter).countP fun level => level = "+" || level = "#"
  let depth (filter : String) := (splitTopicLevels filter).length
  if wildcards first ≠ wildcards second then wildcards first < wildcards second
  else if depth first ≠ depth second then depth first > depth second
  else first.toList < second.toList

def mergeMatchedClient (result : Assoc ClientID SubOption) (entry : ClientID × SubOption) :
    Assoc ClientID SubOption :=
  match result.lookup entry.1 with
  | none => Assoc.set result entry.1 entry.2
  | some existing =>
    if entry.2.qos > existing.qos ∨
        entry.2.qos = existing.qos ∧ isMoreSpecificFilter entry.2.topic existing.topic then
      Assoc.set result entry.1 entry.2
    else result

def mergeMatchedNodeClients (result : Assoc ClientID SubOption) (node : TreeNode) :
    Assoc ClientID SubOption :=
  node.client.entries.foldl mergeMatchedClient result

def parseSharedSubscription (topicFilter : String) : Option (String × String) :=
  if startsWith topicFilter "$share/" then
    match (topicFilter.toList.drop 7).splitOn '/' with
    | group :: part :: parts =>
      let inner := ['/'].intercalate (part :: parts)
      if group = [] ∨ (group.any fun char => char = '+' || char = '#') ∨ inner = [] then none
      else some (String.ofList group, String.ofList inner)
    | _ => none
  else none

structure SharedText (topic group filter : String) : Prop where
  text : topic = "$share/" ++ group ++ "/" ++ filter
  named : group ≠ ""
  plain : ∀ char ∈ ['/', '+', '#'], char ∉ group.toList
  filtered : filter ≠ ""

theorem parseSharedSubscription_eq_some_iff {topic group filter : String} :
    parseSharedSubscription topic = some (group, filter) ↔ SharedText topic group filter := by
  have hj (chars : List Char) : ['/'].intercalate (chars.splitOn '/') = chars :=
    intercalate_splitOn '/'
  constructor
  · intro hp
    rw [parseSharedSubscription] at hp
    split_ifs at hp with hs
    obtain ⟨rest, ht⟩ := isPrefixOf_iff_prefix.mp hs
    have hd : topic.toList.drop 7 = rest := by
      rw [← ht]
      rfl
    have hr := hj rest
    split at hp
    · rename_i first part parts he
      rw [hd] at he
      have hu : '/' ∉ first := not_mem_of_mem_splitOn (he ▸ mem_cons_self)
      dsimp only at hp
      split_ifs at hp with hc
      simp only [not_or, any_eq_true, Bool.or_eq_true, decide_eq_true_eq] at hc
      cases hp
      rw [he, intercalate_cons_cons] at hr
      refine ⟨?_, fun he => hc.1 (by simpa using he), ?_, fun he => hc.2.2 (by simpa using he)⟩
      · apply String.toList_inj.mp
        rw [← ht, ← hr]
        simp
      · simp only [forall_mem_cons, String.toList_ofList]
        exact ⟨hu, fun hm => hc.2.1 ⟨_, hm, .inl rfl⟩, fun hm => hc.2.1 ⟨_, hm, .inr rfl⟩, nofun⟩
    · cases hp
  · rintro ⟨rfl, hg, hw, hf⟩
    have hs : startsWith ("$share/" ++ group ++ "/" ++ filter) "$share/" = true :=
      isPrefixOf_iff_prefix.mpr ⟨group.toList ++ '/' :: filter.toList, by simp⟩
    have hd : ("$share/" ++ group ++ "/" ++ filter).toList.drop 7 =
        group.toList ++ '/' :: filter.toList := by
      simp
    have hg : group.toList ≠ [] := fun he => hg (String.toList_inj.mp he)
    have hf : filter.toList ≠ [] := fun he => hf (String.toList_inj.mp he)
    have hc : (group.toList.any fun char => char = '+' || char = '#') = false := by
      simp only [any_eq_false, Bool.or_eq_true, decide_eq_true_eq]
      rintro char hm (rfl | rfl)
      · exact hw '+' (by simp) hm
      · exact hw '#' (by simp) hm
    have hj := hj filter.toList
    cases hp : filter.toList.splitOn '/' with
    | nil => exact absurd hp (splitOn_ne_nil _ _)
    | cons part parts =>
      rw [hp] at hj
      rw [parseSharedSubscription, if_pos hs, hd,
        splitOn_append_cons_self_of_not_mem (hw '/' (by simp)), hp]
      simp [hj, hg, hf, hc]

namespace SubCore

variable (core : SubCore)

def matchTopic (topic : String) : Assoc String Int :=
  (core.walkMatchingTopicNodes topic).foldl (fun result node =>
    if node.topic ≠ "" ∧ node.nodeMaxQoS > (result.lookup node.topic).getD 0 then
      Assoc.set result node.topic node.nodeMaxQoS
    else result) .empty

def matchTopicClient (topic : String) : Assoc ClientID SubOption :=
  (core.walkMatchingTopicNodes topic).foldl mergeMatchedNodeClients .empty

def matchTopicForWildcard (wildcardTopic : String) : List String :=
  core.root.matchForWildcard (splitTopicLevels wildcardTopic)

def shareMembers (shareGroup : String) : List (ClientID × String) :=
  core.clients.entries.flatMap fun client => client.2.entries.filterMap fun option =>
    match parseSharedSubscription option.topic with
    | some (group, filter) => if group = shareGroup then some (client.1, filter) else none
    | none => none

end SubCore

/-! ## Reads of the center -/

inductive Read where
  | allMatchTopics (topic : String)
  | allMatchClient (topic : String)
  | allMatchClientV2 (topic : String)
  | allMatchTopicsForWildTopic (topic : String)
  | shareGroupMembers (shareGroup : String)
  | subTree (topic : String) (maxDepth : Int)
  | clientSubscriptions (clientID : ClientID)

inductive Answer where
  | topics (topics : Assoc String Int)
  | clients (clients : Assoc ClientID SubOption)
  | clientMatches (clientMatches : List ClientMatch)
  | filters (filters : List String)
  | members (members : List (ClientID × String))
  | tree (root : TreeNode)
  | options (options : List SubOption)

def lastTopicSection (topic : String) : String :=
  match (splitTopicLevels topic).getLast? with
  | none => "/"
  | some last => if last = "" then "/" else last

def emptyTreeNode (topic : String) : TreeNode := .mk (lastTopicSection topic) topic .empty (some [])

/-- One member per client and filter, the first one found, in sorted order. -/
def sortedMembers (found : List (ClientID × String)) : List (ClientID × String) :=
  let kept := found.foldl (fun members member =>
    if members.any fun other => other.1 ++ "|" ++ other.2 = member.1 ++ "|" ++ member.2 then members
    else members ++ [member]) []
  kept.insertionSort fun first second =>
    first.1.toList < second.1.toList ∨ first.1 = second.1 ∧ first.2.toList ≤ second.2.toList

namespace MemorySubCenter

variable (center : MemorySubCenter)

def shardsAt (shardKeys : List String) : List SubCore := shardKeys.filterMap center.shards.lookup

def mergeMatches {V : Type} (ask : SubCore → Assoc String V) (better : V → V → Bool)
    (topic : String) : Assoc String V :=
  (center.shardsAt (shardKeysForMatch topic)).foldl (fun response core =>
    (ask core).entries.foldl (fun response entry =>
      match response.lookup entry.1 with
      | none => Assoc.set response entry.1 entry.2
      | some old =>
        if better entry.2 old then Assoc.set response entry.1 entry.2 else response) response)
    .empty

def getAllMatchTopics (topic : String) : Assoc String Int :=
  center.mergeMatches (fun core => core.matchTopic topic) (fun maxQoS old => maxQoS > old) topic

def getAllMatchClient (topic : String) : Assoc ClientID SubOption :=
  center.mergeMatches (fun core => core.matchTopicClient topic)
    (fun option old => option.qos > old.qos) topic

variable (order : List String)

def getAllMatchTopicsForWildTopic (topic : String) : List String :=
  (center.shardsAt order).flatMap fun core => core.matchTopicForWildcard topic

def foundMembers (shareGroup : String) : List (ClientID × String) :=
  (center.shardsAt order).flatMap fun core => core.shareMembers shareGroup

def getShareGroupMembers (shareGroup : String) : List (ClientID × String) :=
  if shareGroup = "" then [] else sortedMembers (center.foundMembers order shareGroup)

def getSubTree (topic : String) (maxDepth : Int) : TreeNode :=
  let topic := if topic = "" then "/" else topic
  let depth := if maxDepth ≤ 0 then 8 else maxDepth.toNat
  if topic = "/" then
    (center.shardsAt order).foldl
      (fun root core => root.mergeTreeNode (core.root.cloneNodeLimited depth))
      (.mk "/" "/" .empty (some []))
  else
    match center.shards.lookup (shardKeyFromTopic topic) with
    | none => emptyTreeNode topic
    | some core =>
      match core.root.descend (splitTopicLevels topic) with
      | none => emptyTreeNode topic
      | some node => node.cloneNodeLimited depth

def clientSubscriptionsIn (clientID : ClientID) : List SubOption :=
  if clientID = "" then []
  else (center.shardsAt order).flatMap fun core => (core.topicsOf clientID).entries

/-- The keys of the shards; a Go map is visited in any order of them. -/
def shardKeys : List String := center.shards.entries.map Prod.fst

/-- The answers when the maps inside the shards are visited in any order. -/
def answersIn : Read → Set Answer
  | .allMatchTopics topic => {.topics (center.getAllMatchTopics topic)}
  | .allMatchClient topic => {.clients (center.getAllMatchClient topic)}
  | .allMatchClientV2 topic =>
    Answer.clientMatches '' { found | found.Perm (center.getAllMatchClientV2 topic) }
  | .allMatchTopicsForWildTopic topic =>
    Answer.filters '' { found | found.Perm (center.getAllMatchTopicsForWildTopic order topic) }
  | .shareGroupMembers shareGroup =>
    (fun found => .members (if shareGroup = "" then [] else sortedMembers found)) ''
      { found | found.Perm (center.foundMembers order shareGroup) }
  | .subTree topic maxDepth => {.tree (center.getSubTree order topic maxDepth)}
  | .clientSubscriptions clientID =>
    Answer.options '' { found | found.Perm (center.clientSubscriptionsIn order clientID) }

def answers (read : Read) : Set Answer :=
  { answer | ∃ order, order.Perm center.shardKeys ∧ answer ∈ center.answersIn order read }

end MemorySubCenter

end SkyTree.Subscription
