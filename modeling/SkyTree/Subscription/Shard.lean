import SkyTree.Foundation.KeyedTable
import SkyTree.Mqtt.Packet

/-!
# One shard of the subscription center

A shard keeps its subscriptions twice: in a trie indexed by topic levels, which
publishing walks, and in a table of topics per client, which cleanup walks. A
deletion reaches the client table only when the trie holds the whole path, so the
two copies must stay in step.
-/

namespace SkyTree.Subscription

open Foundation List Option KeyedTable

structure SubOption where
  topic : String
  qos : Int
  retainAsPublished : Bool := false
  noLocal : Bool := false
  retainHandling : Int := 0
  subscriptionIdentifier : Int := 0
  deriving DecidableEq, Repr

def splitTopicLevels (topic : String) : List String :=
  if topic = "" then [] else (topic.toList.splitOn '/').map String.ofList

/-- The level checks of `validateTopicFilter`; `last` tells the final level. -/
def validateLevels : List String → Except String Unit
  | [] => .ok ()
  | level :: rest =>
    if level = "#" then
      if rest = [] then .ok () else .error "invalid topic filter: # must be last level"
    else if level.toList.contains '#' then
      .error "invalid topic filter: # must occupy entire level"
    else if level ≠ "+" ∧ level.toList.contains '+' then
      .error "invalid topic filter: + must occupy entire level"
    else validateLevels rest

def validateTopicFilter (filter : String) : Except String Unit :=
  if filter = "" then .error "invalid topic filter: empty"
  else validateLevels (splitTopicLevels filter)

/-- A node; its child map is `none` where it is the nil map. -/
inductive TreeNode where
  | mk (topicSection topic : String) (client : Assoc ClientID SubOption)
      (childMap : Option (List (String × TreeNode)))

namespace TreeNode

def childMap : TreeNode → Option (List (String × TreeNode))
  | mk _ _ _ childMap => childMap

def childNode (node : TreeNode) : List (String × TreeNode) := node.childMap.getD []

def fresh (level : String) : TreeNode := mk level "" .empty (some [])

def child (node : TreeNode) (level : String) : Option TreeNode := node.childNode.lookup level

def replaceChild (level : String) (next : TreeNode) :
    List (String × TreeNode) → List (String × TreeNode)
  | [] => [(level, next)]
  | (name, node) :: rest =>
    if name = level then (name, next) :: rest else (name, node) :: replaceChild level next rest

/-- Store a child; a nil map is made first. -/
def setChild : TreeNode → String → TreeNode → TreeNode
  | mk topicSection topic client childMap, level, next =>
    mk topicSection topic client (some (replaceChild level next (childMap.getD [])))

/-- Create the missing levels and store the option at the last one. -/
def insert (clientID : ClientID) (option : SubOption) : List String → TreeNode → TreeNode
  | [], mk topicSection _ client childMap =>
    mk topicSection option.topic (Assoc.set client clientID option) childMap
  | level :: rest, node =>
    node.setChild level (insert clientID option rest ((node.child level).getD (fresh level)))

/-- Rewrite the clients at the end of the path; `none` when a level is missing. -/
def modifyAt (change : Assoc ClientID SubOption → Assoc ClientID SubOption) :
    List String → TreeNode → Option TreeNode
  | [], mk topicSection topic client childMap =>
    some (mk topicSection topic (change client) childMap)
  | level :: rest, node =>
    match node.child level with
    | none => none
    | some next => (modifyAt change rest next).map fun changed => node.setChild level changed

abbrev remove (clientID : ClientID) : List String → TreeNode → Option TreeNode :=
  modifyAt fun client => client.erase clientID

def HasPath : List String → TreeNode → Prop
  | [], _ => True
  | level :: rest, node => ∃ next, node.child level = some next ∧ HasPath rest next

theorem lookup_cons (name other : String) (node : TreeNode) (rest : List (String × TreeNode)) :
    ((name, node) :: rest).lookup other =
      if other = name then some node else rest.lookup other := by
  by_cases he : other = name
  · simp [he]
  · simp [List.lookup_cons, he, beq_false_of_ne he]

theorem lookup_replaceChild (level other : String) (next : TreeNode)
    (kids : List (String × TreeNode)) :
    (replaceChild level next kids).lookup other =
      if other = level then some next else kids.lookup other := by
  induction kids with
  | nil => simp [replaceChild, lookup_cons]
  | cons head rest ih =>
    obtain ⟨name, node⟩ := head
    by_cases hit : name = level
    · subst hit
      by_cases he : other = name <;> simp [replaceChild, lookup_cons, he]
    · by_cases he : other = name
      · subst he
        simp [replaceChild, hit]
      · simp [replaceChild, hit, lookup_cons, he, ih]

@[simp] theorem child_setChild (level other : String) (next node : TreeNode) :
    (node.setChild level next).child other =
      if other = level then some next else node.child other := by
  cases node
  exact lookup_replaceChild _ _ _ _

theorem hasPath_insert (cid : ClientID) (opt : SubOption) (path : List String)
    (node : TreeNode) : HasPath path (node.insert cid opt path) := by
  induction path generalizing node with
  | nil => trivial
  | cons level rest ih =>
    refine ⟨insert cid opt rest ((node.child level).getD (fresh level)), ?_, ih _⟩
    simp [insert]

theorem HasPath.insert {path : List String} {node : TreeNode} (hp : HasPath path node)
    (cid : ClientID) (opt : SubOption) (lvs : List String) :
    HasPath path (node.insert cid opt lvs) := by
  induction lvs generalizing path node with
  | nil =>
    cases node
    cases path with
    | nil => trivial
    | cons level rest => exact hp
  | cons level lvs ih =>
    cases path with
    | nil => trivial
    | cons first rest =>
      obtain ⟨next, hf, ht⟩ := hp
      by_cases he : first = level
      · subst he
        refine ⟨next.insert cid opt lvs, ?_, ih ht⟩
        simp [TreeNode.insert, hf]
      · exact ⟨next, by simp [TreeNode.insert, he, hf], ht⟩

section ModifyAt

variable {change : Assoc ClientID SubOption → Assoc ClientID SubOption} {level : String}
  {rest path lvs : List String} {node changed : TreeNode}

theorem modifyAt_cons_eq_some : node.modifyAt change (level :: rest) = some changed ↔ ∃ next inner,
      node.child level = some next ∧ next.modifyAt change rest = some inner ∧
        changed = node.setChild level inner := by
  rw [modifyAt]
  cases node.child level with
  | none => simp
  | some next =>
    constructor
    · intro hm
      obtain ⟨inner, mod, rfl⟩ := map_eq_some_iff.mp hm
      exact ⟨next, inner, rfl, mod, rfl⟩
    · rintro ⟨_, inner, ⟨⟩, mod, rfl⟩
      exact map_eq_some_iff.mpr ⟨inner, mod, rfl⟩

theorem modifyAt_isSome_iff : (node.modifyAt change path).isSome ↔ HasPath path node := by
  induction path generalizing node with
  | nil =>
    cases node
    simp [modifyAt, HasPath]
  | cons level rest ih =>
    cases hf : node.child level with
    | none => simp [modifyAt, HasPath, hf]
    | some next => simpa [modifyAt, HasPath, hf] using ih

theorem HasPath.modifyAt (hp : HasPath path node)
    (hm : node.modifyAt change lvs = some changed) : HasPath path changed := by
  induction lvs generalizing path node changed with
  | nil =>
    cases node
    cases hm
    cases path with
    | nil => trivial
    | cons level rest => exact hp
  | cons level lvs ih =>
    obtain ⟨next, inner, hf, mod, rfl⟩ := modifyAt_cons_eq_some.mp hm
    cases path with
    | nil => trivial
    | cons first rest =>
      obtain ⟨target, foundTarget, ht⟩ := hp
      by_cases he : first = level
      · subst he
        rw [hf] at foundTarget
        cases foundTarget
        exact ⟨inner, by simp, ih ht mod⟩
      · exact ⟨target, by simp [he, foundTarget], ht⟩

end ModifyAt

end TreeNode

abbrev ClientSubTopic := KeyedTable SubOption.topic

/-- A shard; `traced` ties the client tables to the trie. -/
structure SubCore where
  root : TreeNode
  clients : Assoc ClientID ClientSubTopic
  traced : ∀ clientID topics option, clients.lookup clientID = some topics → option ∈ topics →
    root.HasPath (splitTopicLevels option.topic)

namespace SubCore

def empty : SubCore where
  root := .mk "/" "/" .empty (some [])
  clients := .empty
  traced := by simp

def topicsOf (core : SubCore) (clientID : ClientID) : ClientSubTopic :=
  (core.clients.lookup clientID).getD .empty

variable {cid : ClientID}

theorem hasPath_of_mem_topicsOf {core : SubCore} {opt : SubOption} (hm : opt ∈ core.topicsOf cid) :
    core.root.HasPath (splitTopicLevels opt.topic) := by
  cases hf : core.clients.lookup cid with
  | none => simp [topicsOf, hf] at hm
  | some topics => exact core.traced cid topics opt hf (by simpa [topicsOf, hf] using hm)

def store (core : SubCore) (clientID : ClientID) (option : SubOption) : SubCore where
  root := core.root.insert clientID option (splitTopicLevels option.topic)
  clients := Assoc.set core.clients clientID ((core.topicsOf clientID).put option)
  traced := by
    intro other topics stored found member
    by_cases same : other = clientID
    · subst same
      rw [Assoc.lookup_set_self] at found
      cases found
      rcases mem_put.mp member with ⟨old, _⟩ | rfl
      · exact (hasPath_of_mem_topicsOf old).insert _ _ _
      · exact TreeNode.hasPath_insert _ _ _ _
    · rw [Assoc.lookup_set_of_ne _ _ same] at found
      exact (core.traced other topics stored found member).insert _ _ _

/-- The client table after one topic is removed; a client without topics is dropped. -/
def withoutTopic (core : SubCore) (clientID : ClientID) (topic : String) :
    Assoc ClientID ClientSubTopic :=
  match core.clients.lookup clientID with
  | none => core.clients
  | some topics =>
    let kept := topics.erase topic
    if kept.entries = [] then core.clients.erase clientID
    else Assoc.set core.clients clientID kept

theorem lookup_withoutTopic_self (core : SubCore) (cid : ClientID) (topic : String) :
    ((core.withoutTopic cid topic).lookup cid).getD .empty = (core.topicsOf cid).erase topic := by
  unfold withoutTopic topicsOf
  cases hf : core.clients.lookup cid with
  | none =>
    simp only [getD_none]
    rw [hf]
    rfl
  | some topics =>
    by_cases hn : (topics.erase topic).entries = []
    · have he : topics.erase topic = KeyedTable.empty := eq_empty_iff.mpr hn
      simp only [if_pos hn, Assoc.lookup_erase_self, getD_none, getD_some]
      exact he.symm
    · simp [hn]

variable {other : ClientID}

theorem lookup_withoutTopic_of_ne (core : SubCore) (topic : String) (hne : other ≠ cid) :
    (core.withoutTopic cid topic).lookup other = core.clients.lookup other := by
  unfold withoutTopic
  cases hf : core.clients.lookup cid with
  | none => rfl
  | some topics =>
    by_cases hn : (topics.erase topic).entries = [] <;> simp [hn, hne]

/-- `deleteSub` returns before the client table when the trie lacks a level. -/
def deleteSub (core : SubCore) (clientID : ClientID) (topic : String) : SubCore :=
  match removed : core.root.remove clientID (splitTopicLevels topic) with
  | none => core
  | some root =>
    { root := root
      clients := core.withoutTopic clientID topic
      traced := by
        intro other topics option found member
        refine TreeNode.HasPath.modifyAt ?_ removed
        by_cases same : other = clientID
        · subst same
          have kept : option ∈ (core.topicsOf other).erase topic := by
            rw [← lookup_withoutTopic_self, found]
            exact member
          exact hasPath_of_mem_topicsOf (mem_erase.mp kept).1
        · rw [lookup_withoutTopic_of_ne core topic same] at found
          exact core.traced other topics option found member }

@[simp] theorem topicsOf_empty (cid : ClientID) : empty.topicsOf cid = .empty := rfl

variable (core : SubCore)

@[simp] theorem topicsOf_store_self (cid : ClientID) (option : SubOption) :
    (core.store cid option).topicsOf cid = (core.topicsOf cid).put option := by
  simp [store, topicsOf]

@[simp] theorem topicsOf_store_of_ne (opt : SubOption) (hne : other ≠ cid) :
    (core.store cid opt).topicsOf other = core.topicsOf other := by
  simp [store, topicsOf, hne]

theorem topicsOf_deleteSub_of_ne (topic : String) (hne : other ≠ cid) :
    (core.deleteSub cid topic).topicsOf other = core.topicsOf other := by
  unfold deleteSub
  split
  · rfl
  · simp [topicsOf, lookup_withoutTopic_of_ne core topic hne]

/-- A stored topic has its path, so its deletion reaches the client table. -/
theorem topicsOf_deleteSub_self {opt : SubOption} (hm : opt ∈ core.topicsOf cid) :
    (core.deleteSub cid opt.topic).topicsOf cid = (core.topicsOf cid).erase opt.topic := by
  have hp : (core.root.remove cid (splitTopicLevels opt.topic)).isSome :=
    TreeNode.modifyAt_isSome_iff.mpr (hasPath_of_mem_topicsOf hm)
  unfold deleteSub
  split
  next missing => simp [missing] at hp
  next => exact lookup_withoutTopic_self core cid opt.topic

theorem entries_deleteSub_of_absent {topic : String} (ha : (core.topicsOf cid).get topic = none) :
    ((core.deleteSub cid topic).topicsOf cid).entries = (core.topicsOf cid).entries := by
  unfold deleteSub
  split
  · rfl
  · refine (congrArg KeyedTable.entries (lookup_withoutTopic_self core cid topic)).trans ?_
    exact erase_eq_self ha

def deleteClient (clientID : ClientID) : SubCore :=
  (core.topicsOf clientID).entries.foldl
    (fun kept option => kept.deleteSub clientID option.topic) core

theorem topicsOf_foldl_deleteSub_of_ne (opts : List SubOption) (core : SubCore)
    (hne : other ≠ cid) :
    (opts.foldl (fun kept opt => kept.deleteSub cid opt.topic) core).topicsOf other =
      core.topicsOf other := by
  induction opts generalizing core with
  | nil => rfl
  | cons opt rest ih =>
    rw [foldl_cons, ih, topicsOf_deleteSub_of_ne _ _ hne]

theorem topicsOf_foldl_deleteSub_self (opts : List SubOption) (core : SubCore)
    (cid : ClientID) (hr : (core.topicsOf cid).entries = opts) :
    (opts.foldl (fun kept opt => kept.deleteSub cid opt.topic) core).topicsOf cid = .empty := by
  induction opts generalizing core with
  | nil => exact eq_empty_iff.mpr hr
  | cons opt rest ih =>
    have hm : opt ∈ core.topicsOf cid := by
      rw [KeyedTable.mem_def, hr]
      exact mem_cons_self
    refine ih _ ?_
    rw [topicsOf_deleteSub_self core hm]
    have hd := (core.topicsOf cid).distinct
    rw [hr, map_cons, nodup_cons] at hd
    simp only [KeyedTable.erase, KeyedTable.filter, hr]
    rw [filter_cons_of_neg (by simp)]
    refine filter_eq_self.mpr fun other inRest => ?_
    have hne : other.topic ≠ opt.topic := fun he => hd.1 (he ▸ mem_map_of_mem inRest)
    simpa using hne

theorem deleteClient_of_empty {core : SubCore} (hn : core.topicsOf cid = .empty) :
    core.deleteClient cid = core := by
  rw [deleteClient, hn]
  rfl

@[simp] theorem topicsOf_deleteClient_self (core : SubCore) (cid : ClientID) :
    (core.deleteClient cid).topicsOf cid = .empty :=
  topicsOf_foldl_deleteSub_self _ _ _ rfl

@[simp] theorem topicsOf_deleteClient_of_ne (core : SubCore) (hne : other ≠ cid) :
    (core.deleteClient cid).topicsOf other = core.topicsOf other :=
  topicsOf_foldl_deleteSub_of_ne _ _ hne

end SubCore

end SkyTree.Subscription
