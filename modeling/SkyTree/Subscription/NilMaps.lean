import SkyTree.Subscription.Reads

/-!
# Nil and empty child maps

A snapshot does not tell an empty map from the nil map, so a node without children comes back
with a nil child map. `restored` is the node that comes back. Two tries with the same restored
form hold the same subscriptions, and every read but one gives the same answer on both. The
search for the filters below a wildcard filter stops at a nil map, so its answer also depends on
where the child maps are nil.
-/

namespace SkyTree.Subscription

open Foundation List TreeNode

namespace TreeNode

mutual

def restored : TreeNode → TreeNode
  | mk topicSection topic client none => mk topicSection topic client none
  | mk topicSection topic client (some []) => mk topicSection topic client none
  | mk topicSection topic client (some (child :: rest)) =>
    mk topicSection topic client (some (restoredChildren (child :: rest)))

def restoredChildren : List (String × TreeNode) → List (String × TreeNode)
  | [] => []
  | (name, child) :: rest => (name, child.restored) :: restoredChildren rest

end

theorem restoredChildren_eq_map (kids : List (String × TreeNode)) :
    restoredChildren kids = kids.map fun child => (child.1, child.2.restored) := by
  induction kids with
  | nil => rfl
  | cons head rest ih => rw [restoredChildren, ih, map_cons]

section Restored

variable (node : TreeNode)

def restoredMap : List (String × TreeNode) → Option (List (String × TreeNode))
  | [] => none
  | child :: rest => some ((child :: rest).map fun child => (child.1, child.2.restored))

theorem restored_eq : node.restored =
    mk node.topicSection node.topic node.client (restoredMap node.childNode) := by
  match node with
  | mk _ _ _ none | mk _ _ _ (some []) =>
    rw [restored]
    rfl
  | mk _ _ _ (some (child :: rest)) =>
    rw [restored, restoredChildren_eq_map]
    rfl

theorem restored_eq_iff {first snd : TreeNode} : first.restored = snd.restored ↔
    first.topicSection = snd.topicSection ∧ first.topic = snd.topic ∧
      first.client = snd.client ∧ restoredMap first.childNode = restoredMap snd.childNode := by
  rw [restored_eq, restored_eq, mk.injEq]

@[simp] theorem topicSection_restored : node.restored.topicSection = node.topicSection := by
  rw [restored_eq]
  rfl

@[simp] theorem topic_restored : node.restored.topic = node.topic := by
  rw [restored_eq]
  rfl

@[simp] theorem client_restored : node.restored.client = node.client := by
  rw [restored_eq]
  rfl

theorem childMap_restored : node.restored.childMap = restoredMap node.childNode := by
  rw [restored_eq]
  rfl

theorem childNode_restored :
    node.restored.childNode = node.childNode.map fun child => (child.1, child.2.restored) := by
  rw [childNode, childMap_restored]
  cases node.childNode <;> rfl

theorem lookup_map_restored (kids : List (String × TreeNode)) (level : String) :
    (kids.map fun child => (child.1, child.2.restored)).lookup level =
      (kids.lookup level).map restored := by
  induction kids with
  | nil => rfl
  | cons head rest ih =>
    obtain ⟨name, child⟩ := head
    rw [map_cons, lookup_cons, lookup_cons, ih]
    split <;> rfl

@[simp] theorem child_restored (level : String) :
    node.restored.child level = (node.child level).map restored := by
  rw [child, childNode_restored, lookup_map_restored]
  rfl

variable (path : List String)

theorem descend_restored : node.restored.descend path = (node.descend path).map restored := by
  induction path generalizing node with
  | nil => rfl
  | cons level rest ih =>
    rw [descend, descend, child_restored]
    cases node.child level with
    | none => rfl
    | some next => exact ih next

theorem hasPath_restored : HasPath path node.restored ↔ HasPath path node := by
  induction path generalizing node with
  | nil => exact Iff.rfl
  | cons level rest ih =>
    simp only [HasPath, child_restored, Option.map_eq_some_iff]
    constructor
    · rintro ⟨_, ⟨next, hf, rfl⟩, ht⟩
      exact ⟨next, hf, (ih next).mp ht⟩
    · rintro ⟨next, hf, ht⟩
      exact ⟨_, ⟨next, hf, rfl⟩, (ih next).mpr ht⟩

theorem clientsAt_restored : node.restored.clientsAt path = node.clientsAt path := by
  rw [clientsAt, clientsAt, descend_restored]
  cases node.descend path with
  | none => rfl
  | some target => exact client_restored target

end Restored

mutual

theorem restored_restored : (node : TreeNode) → node.restored.restored = node.restored
  | mk _ _ _ none | mk _ _ _ (some []) => by rw [restored, restored]
  | mk _ _ _ (some ((name, child) :: rest)) => by
      have inner := restoredChildren_restoredChildren ((name, child) :: rest)
      rw [restored]
      rw [restoredChildren] at inner ⊢
      rw [restored, inner]

theorem restoredChildren_restoredChildren : (kids : List (String × TreeNode)) →
    restoredChildren (restoredChildren kids) = restoredChildren kids
  | [] => by rw [restoredChildren, restoredChildren]
  | (name, child) :: rest => by
      rw [restoredChildren, restoredChildren, restored_restored child,
        restoredChildren_restoredChildren rest]

end

theorem Distinct.restored {node : TreeNode} (hd : node.Distinct) : node.restored.Distinct := by
  intro path target hr
  rw [descend_restored] at hr
  obtain ⟨old, hf, rfl⟩ := Option.map_eq_some_iff.mp hr
  rw [TreeNode.names, childNode_restored, map_map]
  exact hd path old hf

/-! ## Changes of the trie -/

theorem topicSection_setChild (node next : TreeNode) (level : String) :
    (node.setChild level next).topicSection = node.topicSection := by
  cases node
  rfl

theorem childNode_setChild (node next : TreeNode) (level : String) :
    (node.setChild level next).childNode = replaceChild level next node.childNode := by
  cases node
  rfl

theorem replaceChild_ne_nil (level : String) (next : TreeNode) (kids : List (String × TreeNode)) :
    replaceChild level next kids ≠ [] := by
  cases kids with
  | nil => exact cons_ne_nil _ _
  | cons head rest =>
    rw [replaceChild]
    split <;> exact cons_ne_nil _ _

theorem map_replaceChild (level : String) (next : TreeNode) (kids : List (String × TreeNode)) :
    (replaceChild level next kids).map (fun child => (child.1, child.2.restored)) =
      replaceChild level next.restored (kids.map fun child => (child.1, child.2.restored)) := by
  induction kids with
  | nil => rfl
  | cons head rest ih =>
    obtain ⟨name, child⟩ := head
    rw [map_cons, replaceChild, replaceChild]
    split
    · rfl
    · rw [map_cons, ih]

theorem restoredMap_of_ne_nil {kids : List (String × TreeNode)} (hs : kids ≠ []) :
    restoredMap kids = some (kids.map fun child => (child.1, child.2.restored)) := by
  cases kids with
  | nil => exact absurd rfl hs
  | cons head rest => rfl

theorem restored_setChild (node next : TreeNode) (level : String) :
    (node.setChild level next).restored = node.restored.setChild level next.restored := by
  obtain ⟨topicSection, topic, client, childMap⟩ := node
  rw [restored_eq, childNode_setChild, restoredMap_of_ne_nil (replaceChild_ne_nil _ _ _),
    map_replaceChild, ← childNode_restored, restored_eq (mk _ _ _ _)]
  rfl

section Alike

variable {first snd : TreeNode} (alike : first.restored = snd.restored)

include alike

theorem child_alike (level : String) : first.child level = none ∧ snd.child level = none ∨
      ∃ next o, first.child level = some next ∧ snd.child level = some o ∧
        next.restored = o.restored := by
  have hb : (first.child level).map restored = (snd.child level).map restored := by
    rw [← child_restored, ← child_restored, alike]
  cases hf : first.child level with
  | none =>
    rw [hf, Option.map_none, eq_comm, Option.map_eq_none_iff] at hb
    exact .inl ⟨rfl, hb⟩
  | some next =>
    rw [hf, Option.map_some, eq_comm, Option.map_eq_some_iff] at hb
    obtain ⟨o, got, he⟩ := hb
    exact .inr ⟨next, o, rfl, got, he.symm⟩

theorem insert_alike (cid : ClientID) (opt : SubOption) (path : List String) :
    (first.insert cid opt path).restored = (snd.insert cid opt path).restored := by
  induction path generalizing first snd with
  | nil =>
    obtain ⟨hn, -, clients, hc⟩ := restored_eq_iff.mp alike
    obtain ⟨_, _, _, _⟩ := first
    obtain ⟨_, _, _, _⟩ := snd
    exact restored_eq_iff.mpr ⟨hn, rfl,
      congrArg (fun clients => Assoc.set clients cid opt) clients, hc⟩
  | cons level rest ih =>
    rw [insert, insert, restored_setChild, restored_setChild, alike]
    refine congrArg _ (ih ?_)
    rcases child_alike alike level with ⟨hm, lost⟩ | ⟨next, o, hf, got, he⟩
    · rw [hm, lost]
    · rw [hf, got]
      exact he

theorem modifyAt_alike (change : Assoc ClientID SubOption → Assoc ClientID SubOption)
    (path : List String) :
    (first.modifyAt change path).map restored = (snd.modifyAt change path).map restored := by
  induction path generalizing first snd with
  | nil =>
    obtain ⟨hn, topic, hc, children⟩ := restored_eq_iff.mp alike
    obtain ⟨_, _, _, _⟩ := first
    obtain ⟨_, _, _, _⟩ := snd
    exact congrArg some (restored_eq_iff.mpr ⟨hn, topic, congrArg change hc, children⟩)
  | cons level rest ih =>
    rw [modifyAt, modifyAt]
    rcases child_alike alike level with ⟨hm, lost⟩ | ⟨next, o, hf, got, he⟩
    · rw [hm, lost]
    · have hi := ih he
      have hs (node : TreeNode) : (restored ∘ fun changed => node.setChild level changed) =
          (fun changed => node.restored.setChild level changed) ∘ restored :=
        funext fun changed => restored_setChild node changed level
      rw [hf, got]
      dsimp only
      rw [Option.map_map, Option.map_map, hs, hs, ← Option.map_map, ← Option.map_map, hi, alike]

end Alike

/-! ## Where the child maps are nil -/

/-- The node at the end of the path exists and its child map is nil. -/
def LacksMap (path : List String) (node : TreeNode) : Prop :=
  ∃ target, node.descend path = some target ∧ target.childMap = none

theorem lacksMap_nil (node : TreeNode) : node.LacksMap [] ↔ node.childMap = none := by
  simp [LacksMap, descend]

theorem lacksMap_cons (level : String) (rest : List String) (node : TreeNode) :
    node.LacksMap (level :: rest) ↔ ∃ next, node.child level = some next ∧ next.LacksMap rest := by
  unfold LacksMap
  rw [descend]
  cases node.child level with
  | none | some next => simp

theorem not_lacksMap_fresh (level : String) (path : List String) :
    ¬(fresh level).LacksMap path := by
  cases path with
  | nil => simp [lacksMap_nil, fresh, childMap]
  | cons first rest => simp [lacksMap_cons, child, childNode, childMap, fresh]

theorem lacksMap_getD_fresh (level : String) (rest : List String) (node : TreeNode) :
    ((node.child level).getD (fresh level)).LacksMap rest ↔ node.LacksMap (level :: rest) := by
  rw [lacksMap_cons]
  cases node.child level with
  | none => simp [not_lacksMap_fresh]
  | some next => simp

theorem not_lacksMap_setChild (node next : TreeNode) (level : String) :
    ¬(node.setChild level next).LacksMap [] := by
  cases node
  simp [lacksMap_nil, setChild, childMap]

theorem lacksMap_setChild (node next : TreeNode) (level o : String) (rest : List String) :
    (node.setChild level next).LacksMap (o :: rest) ↔
      if o = level then next.LacksMap rest else node.LacksMap (o :: rest) := by
  rw [lacksMap_cons, child_setChild]
  by_cases he : o = level
  · simp [he]
  · rw [if_neg he, if_neg he, lacksMap_cons]

theorem lacksMap_insert (cid : ClientID) (opt : SubOption) (levels path : List String)
    (node : TreeNode) :
    (node.insert cid opt levels).LacksMap path ↔
      node.LacksMap path ∧ ¬(path <+: levels ∧ path ≠ levels) := by
  induction levels generalizing path node with
  | nil =>
    have proper : ¬(path <+: [] ∧ path ≠ []) := fun hb => hb.2 (prefix_nil.mp hb.1)
    cases node
    cases path with
    | nil => simp [lacksMap_nil, insert, childMap]
    | cons level rest =>
      rw [lacksMap_cons, lacksMap_cons, and_iff_left proper]
      exact Iff.rfl
  | cons level levels ih =>
    rw [insert]
    cases path with
    | nil => simp [not_lacksMap_setChild]
    | cons first rest =>
      rw [lacksMap_setChild]
      by_cases he : first = level
      · subst he
        rw [if_pos rfl, ih, lacksMap_getD_fresh, cons_prefix_cons]
        simp
      · simp [he, cons_prefix_cons]

variable {change : Assoc ClientID SubOption → Assoc ClientID SubOption} {node : TreeNode}

theorem lacksMap_modifyAt {levels : List String} {changed : TreeNode}
    (hm : node.modifyAt change levels = some changed) (path : List String) :
    changed.LacksMap path ↔ node.LacksMap path := by
  induction levels generalizing node changed path with
  | nil =>
    cases node
    cases hm
    cases path with
    | nil => simp [lacksMap_nil, childMap]
    | cons level rest =>
      rw [lacksMap_cons, lacksMap_cons]
      exact Iff.rfl
  | cons level levels ih =>
    obtain ⟨next, inner, hf, mod, rfl⟩ := modifyAt_cons_eq_some.mp hm
    cases path with
    | nil =>
      have made : node.childMap ≠ none := by
        intro hl
        simp [child, childNode, hl] at hf
      exact iff_of_false (not_lacksMap_setChild _ _ _) ((lacksMap_nil node).not.mpr made)
    | cons first rest =>
      rw [lacksMap_setChild]
      by_cases he : first = level
      · subst he
        simp [ih mod, lacksMap_cons, hf]
      · rw [if_neg he]

theorem lacksMap_restored (path : List String) (node : TreeNode) :
    node.restored.LacksMap path ↔
      ∃ target, node.descend path = some target ∧ target.childNode = [] := by
  unfold LacksMap
  rw [descend_restored]
  cases node.descend path with
  | none => simp
  | some target =>
    cases hc : target.childNode <;> simp [childMap_restored, hc, restoredMap]

/-! ## Nodes without children -/

/-- The node is the child of this level, and the level is one level only. -/
def Under (level : String) (node : TreeNode) : Prop :=
  node.topicSection = level ∧ '/' ∉ level.toList

/-- Everywhere below, a node without children carries a filter and a child is named by its level. -/
def Marked (node : TreeNode) : Prop :=
  ∀ path target, node.descend path = some target →
    (target.childNode = [] → target.topic ≠ "") ∧
      ∀ level next, target.child level = some next → next.Under level

theorem Marked.child {node next : TreeNode} {level : String} (hm : node.Marked)
    (hf : node.child level = some next) : next.Marked ∧ next.Under level :=
  ⟨fun path target hr => hm (level :: path) target (by simpa [descend, hf] using hr),
    (hm [] node rfl).2 level next hf⟩

theorem Marked.of_children (own : node.childNode = [] → node.topic ≠ "")
    (hb : ∀ level next, node.child level = some next → next.Marked ∧ next.Under level) :
    node.Marked := by
  intro path target hr
  cases path with
  | nil =>
    cases hr
    exact ⟨own, fun level next hf => (hb level next hf).2⟩
  | cons level rest =>
    rw [descend, Option.bind_eq_some_iff] at hr
    obtain ⟨next, hf, hr⟩ := hr
    exact (hb level next hf).1 rest target hr

theorem Marked.setChild {node next : TreeNode} {level : String}
    (hb : ∀ level next, node.child level = some next → next.Marked ∧ next.Under level)
    (hi : next.Marked) (hu : next.Under level) : (node.setChild level next).Marked := by
  refine .of_children (fun none => ?_) fun o found hs => ?_
  · rw [childNode_setChild] at none
    exact absurd none (replaceChild_ne_nil _ _ _)
  · rw [child_setChild] at hs
    split at hs
    next same =>
      cases hs
      exact ⟨hi, same ▸ hu⟩
    next => exact hb o found hs

theorem topicSection_insert (cid : ClientID) (opt : SubOption) (levels : List String)
    (node : TreeNode) : (node.insert cid opt levels).topicSection = node.topicSection := by
  cases levels with
  | nil =>
    cases node
    rfl
  | cons level levels => exact topicSection_setChild _ _ _

theorem Marked.insert {node : TreeNode}
    (hb : ∀ level next, node.child level = some next → next.Marked ∧ next.Under level)
    (cid : ClientID) {opt : SubOption} (hn : opt.topic ≠ "") {levels : List String}
    (hu : ∀ level ∈ levels, '/' ∉ level.toList) :
    (node.insert cid opt levels).Marked := by
  induction levels generalizing node with
  | nil =>
    cases node
    exact .of_children (fun _ => hn) hb
  | cons level levels ih =>
    obtain ⟨hh, hu⟩ := forall_mem_cons.mp hu
    rw [TreeNode.insert]
    cases hf : node.child level with
    | none =>
      refine .setChild hb (ih (fun o next hm => ?_) hu) ⟨topicSection_insert _ _ _ _, hh⟩
      simp [TreeNode.child, childNode, childMap, fresh] at hm
    | some next =>
      obtain ⟨marked, hl, -⟩ := hb level next hf
      exact .setChild hb (ih (fun _ _ => marked.child) hu)
        ⟨(topicSection_insert _ _ _ _).trans hl, hh⟩

theorem topicSection_modifyAt {levels : List String} {changed : TreeNode}
    (hm : node.modifyAt change levels = some changed) :
    changed.topicSection = node.topicSection := by
  cases levels with
  | nil =>
    cases node
    cases hm
    rfl
  | cons level levels =>
    obtain ⟨_, _, _, _, rfl⟩ := modifyAt_cons_eq_some.mp hm
    exact topicSection_setChild _ _ _

theorem Marked.modifyAt {change : Assoc ClientID SubOption → Assoc ClientID SubOption}
    {node changed : TreeNode} {levels : List String} (hm : node.Marked)
    (modified : node.modifyAt change levels = some changed) : changed.Marked := by
  induction levels generalizing node changed with
  | nil =>
    have own := (hm [] node rfl).1
    have hb : ∀ level next, node.child level = some next → next.Marked ∧ next.Under level :=
      fun _ _ => hm.child
    cases node
    cases modified
    exact .of_children own hb
  | cons level levels ih =>
    obtain ⟨next, inner, hf, mod, rfl⟩ := modifyAt_cons_eq_some.mp modified
    obtain ⟨markNext, hl, hu⟩ := hm.child hf
    exact .setChild (fun _ _ => hm.child) (ih markNext mod)
      ⟨(topicSection_modifyAt mod).trans hl, hu⟩

theorem Marked.restored {node : TreeNode} (hm : node.Marked) : node.restored.Marked := by
  intro path target hr
  rw [descend_restored] at hr
  obtain ⟨old, hf, rfl⟩ := Option.map_eq_some_iff.mp hr
  obtain ⟨own, hb⟩ := hm path old hf
  refine ⟨fun none => ?_, fun level next hs => ?_⟩
  · rw [childNode_restored, map_eq_nil_iff] at none
    rw [topic_restored]
    exact own none
  · rw [child_restored] at hs
    obtain ⟨oldNext, next', rfl⟩ := Option.map_eq_some_iff.mp hs
    rw [Under, topicSection_restored]
    exact hb level oldNext next'

variable {path : List String}

/-- The levels of an existing path are single levels, and its last one names its node. -/
theorem Marked.along {target : TreeNode} (marked : node.Marked)
    (hr : node.descend path = some target) :
    (∀ level ∈ path, '/' ∉ level.toList) ∧
      (target.topicSection = node.topicSection ∨ target.topicSection ∈ path) := by
  induction path generalizing node with
  | nil =>
    cases hr
    exact ⟨by simp, .inl rfl⟩
  | cons level rest ih =>
    rw [descend, Option.bind_eq_some_iff] at hr
    obtain ⟨next, hf, hr⟩ := hr
    obtain ⟨markNext, labelled, hu⟩ := marked.child hf
    obtain ⟨hb, hl⟩ := ih markNext hr
    refine ⟨forall_mem_cons.mpr ⟨hu, hb⟩, .inr ?_⟩
    rcases hl with he | hm
    · rw [he, labelled]
      exact mem_cons_self
    · exact mem_cons_of_mem _ hm

/-! ## Reads of a restored node -/

mutual

theorem collectAllTopics_restored : (node : TreeNode) →
    node.restored.collectAllTopics = node.collectAllTopics
  | mk _ _ _ none => by rw [restored]
  | mk _ _ _ (some []) => by
      rw [restored, collectAllTopics, collectAllTopics, collectChildren, append_nil]
  | mk _ _ _ (some ((name, child) :: rest)) => by
      rw [restored, collectAllTopics, collectAllTopics,
        collectChildren_restoredChildren ((name, child) :: rest)]

theorem collectChildren_restoredChildren : (kids : List (String × TreeNode)) →
    collectChildren (restoredChildren kids) = collectChildren kids
  | [] => by rw [restoredChildren]
  | (_, child) :: rest => by
      rw [restoredChildren, collectChildren, collectChildren, collectAllTopics_restored child,
        collectChildren_restoredChildren rest]

end

theorem cloneNodeLimited_restored (maxDepth : Nat) (node : TreeNode) :
    node.restored.cloneNodeLimited maxDepth = node.cloneNodeLimited maxDepth := by
  induction maxDepth generalizing node with
  | zero => simp only [cloneNodeLimited, topicSection_restored, topic_restored, client_restored]
  | succ maxDepth ih =>
    simp only [cloneNodeLimited, topicSection_restored, topic_restored, client_restored,
      childNode_restored, map_map, Function.comp_def, ih]

theorem matchNode_restored (wild : Bool) (levels : List String) (node : TreeNode) :
    matchNode wild 0 levels node.restored = (matchNode wild 0 levels node).map restored := by
  rw [matchNode_eq_filterMap, matchNode_eq_filterMap, map_filterMap]
  exact filterMap_congr fun path _ => descend_restored node path

theorem walkSharedSubscriptionRoots_restored {visit : TreeNode → List TreeNode}
    (hv : ∀ node : TreeNode, visit node.restored = (visit node).map restored) (root : TreeNode) :
    root.restored.walkSharedSubscriptionRoots visit =
      (root.walkSharedSubscriptionRoots visit).map restored := by
  unfold walkSharedSubscriptionRoots
  rw [child_restored]
  cases root.child "$share" with
  | none => rfl
  | some shareRoot =>
    change shareRoot.restored.childNode.flatMap _ = (shareRoot.childNode.flatMap _).map restored
    rw [childNode_restored, flatMap_map, map_flatMap]
    exact flatMap_congr fun group _ => hv group.2

theorem flatMap_childNode (hd : node.Distinct) (keep : String → Bool)
    (read : TreeNode → List String) :
    ((node.childNode.filter fun child => keep child.1).flatMap fun child => read child.2) =
      (node.names.filter keep).flatMap fun name => (node.child name).elim [] read := by
  rw [names, filter_map, flatMap_map]
  refine flatMap_congr fun child hm => ?_
  have hf := (mem_childNode_iff hd.names).mp (mem_of_mem_filter hm)
  rw [hf]
  rfl

theorem names_alike {first snd : TreeNode} (alike : first.restored = snd.restored) :
    first.names = snd.names := by
  have he := congrArg names alike
  simpa [names, childNode_restored, Function.comp_def] using he

/-- The wildcard search sees the restored tries and the nil maps at paths without wildcards. -/
theorem matchForWildcard_alike (levels : List String) {first snd : TreeNode}
    (hd : first.Distinct) (apart' : snd.Distinct)
    (alike : first.restored = snd.restored)
    (maps : ∀ path, Concrete path → (first.LacksMap path ↔ snd.LacksMap path)) :
    first.matchForWildcard levels = snd.matchForWildcard levels := by
  induction levels generalizing first snd with
  | nil =>
    obtain ⟨-, topic, -⟩ := restored_eq_iff.mp alike
    rw [matchForWildcard, matchForWildcard, topic]
  | cons level rest ih =>
    -- A child that is not a wildcard takes its part of the comparison.
    have hb {name : String} (hp : name ≠ "+" ∧ name ≠ "#") {next o : TreeNode}
        (hf : first.child name = some next) (got : snd.child name = some o)
        (he : next.restored = o.restored) :
        next.matchForWildcard rest = o.matchForWildcard rest := by
      refine ih (hd.child hf) (apart'.child got) he fun path hc => ?_
      have hi := maps (name :: path) (by
        simpa [Concrete, hp.1.symm, hp.2.symm] using hc)
      simpa [lacksMap_cons, hf, got] using hi
    rw [matchForWildcard, matchForWildcard]
    by_cases plus : level = "+"
    · rw [if_pos plus, if_pos plus, flatMap_childNode hd fun name => name ≠ "#" && name ≠ "+",
        flatMap_childNode apart' fun name => name ≠ "#" && name ≠ "+", names_alike alike]
      refine flatMap_congr fun name hm => ?_
      rcases child_alike alike name with
        ⟨lost, missingOther⟩ | ⟨next, o, hf, got, he⟩
      · rw [lost, missingOther]
      · have hp : name ≠ "#" ∧ name ≠ "+" := by simpa using of_mem_filter hm
        rw [hf, got]
        exact hb hp.symm hf got he
    · rw [if_neg plus, if_neg plus]
      by_cases hash : level = "#"
      · rw [if_pos hash, if_pos hash]
        have hh := maps [] (by simp [Concrete])
        rw [lacksMap_nil, lacksMap_nil] at hh
        have ht : first.collectAllTopics = snd.collectAllTopics := by
          rw [← collectAllTopics_restored, alike, collectAllTopics_restored]
        cases made : first.childMap with
        | none => rw [hh.mp made]
        | some kids =>
          cases kids' : snd.childMap with
          | none => simp [hh.mpr kids'] at made
          | some others => exact ht
      · rw [if_neg hash, if_neg hash]
        rcases child_alike alike level with
          ⟨lost, missingOther⟩ | ⟨next, o, hf, got, he⟩
        · rw [lost, missingOther]
        · rw [hf, got]
          exact hb ⟨plus, hash⟩ hf got he

/-- Levels without wildcards lead to the node at their end. -/
theorem matchForWildcard_append (hc : Concrete path) (levels : List String) (node : TreeNode) :
    node.matchForWildcard (path ++ levels) =
      (node.descend path).elim [] (matchForWildcard levels) := by
  induction path generalizing node with
  | nil => rfl
  | cons level rest ih =>
    have hp : level ≠ "+" ∧ level ≠ "#" :=
      ⟨fun he => hc.1 (by simp [he]), fun he => hc.2 (by simp [he])⟩
    rw [cons_append, matchForWildcard, if_neg hp.1, if_neg hp.2, descend]
    cases node.child level with
    | none => rfl
    | some next => exact ih hc.tail next

theorem length_matchForWildcard_restored (levels : List String) (node : TreeNode) :
    (node.restored.matchForWildcard levels).length ≤ (node.matchForWildcard levels).length := by
  induction levels generalizing node with
  | nil => simp [matchForWildcard]
  | cons level rest ih =>
    rw [matchForWildcard, matchForWildcard]
    by_cases hp : level = "+"
    · rw [if_pos hp, if_pos hp, childNode_restored, filter_map, flatMap_map,
        length_flatMap, length_flatMap]
      exact sum_le_sum fun child _ => ih child.2
    · rw [if_neg hp, if_neg hp]
      by_cases hh : level = "#"
      · rw [if_pos hh, if_pos hh, childMap_restored, collectAllTopics_restored]
        cases hm : node.childMap with
        | none => simp [childNode, hm, restoredMap]
        | some kids =>
          split
          · exact Nat.zero_le _
          · exact le_rfl
      · rw [if_neg hh, if_neg hh, child_restored]
        cases node.child level with
        | none => exact le_rfl
        | some next => exact ih next

/-- A node without children whose map was made is found by the search below it, and is not found
any more once it is restored. -/
theorem matchForWildcard_lost {target : TreeNode} (hc : Concrete path)
    (hr : node.descend path = some target) (hm : target.childMap = some [])
    (hn : target.topic ≠ "") (hp : target.topicSection ≠ "#" ∧ target.topicSection ≠ "+") :
    (node.restored.matchForWildcard (path ++ ["#"])).length <
      (node.matchForWildcard (path ++ ["#"])).length := by
  rw [matchForWildcard_append hc, matchForWildcard_append hc, descend_restored, hr]
  obtain ⟨topicSection, topic, client, _⟩ := target
  obtain rfl : _ = some [] := hm
  change topic ≠ "" at hn
  change topicSection ≠ "#" ∧ topicSection ≠ "+" at hp
  simp [matchForWildcard, restored, childMap, collectAllTopics, collectChildren, ownTopic, hn, hp]

end TreeNode

/-! ## Shards -/

namespace SubCore

def restored (core : SubCore) : SubCore where
  root := core.root.restored
  clients := core.clients
  traced := fun clientID topics option found member =>
    (core.root.hasPath_restored _).mpr (core.traced clientID topics option found member)

section Reads

variable (core : SubCore) (topic : String)

theorem walkMatchingTopicNodes_restored : core.restored.walkMatchingTopicNodes topic =
      (core.walkMatchingTopicNodes topic).map TreeNode.restored := by
  unfold walkMatchingTopicNodes
  split
  · rfl
  · rw [map_append]
    exact congrArg₂ _ (walkSharedSubscriptionRoots_restored
      (fun node => matchNode_restored _ _ node) core.root)
      (matchNode_restored _ _ core.root)

theorem matchTopic_restored : core.restored.matchTopic topic = core.matchTopic topic := by
  unfold matchTopic
  rw [walkMatchingTopicNodes_restored, foldl_map]
  refine congrArg (fun visit => List.foldl visit _ _) (funext₂ fun res node => ?_)
  have maxQoS : node.restored.nodeMaxQoS = node.nodeMaxQoS := by
    rw [TreeNode.nodeMaxQoS, client_restored, TreeNode.nodeMaxQoS]
  rw [node.topic_restored, maxQoS]

theorem matchTopicClient_restored :
    core.restored.matchTopicClient topic = core.matchTopicClient topic := by
  unfold matchTopicClient mergeMatchedNodeClients
  rw [walkMatchingTopicNodes_restored, foldl_map]
  simp only [client_restored]

theorem matchTopicClientV2_restored :
    core.restored.matchTopicClientV2 topic = core.matchTopicClientV2 topic := by
  unfold matchTopicClientV2 appendMatchedNodeClients
  rw [walkMatchingTopicNodes_restored, foldl_map]
  simp only [client_restored]

end Reads

theorem Agrees.restored {core : SubCore} {shardKey : String} (ha : core.Agrees shardKey) :
    core.restored.Agrees shardKey :=
  { ha with
    distinct := ha.distinct.restored
    found := by
      intro path clientID option
      have he : core.restored.optionAt path clientID = core.optionAt path clientID :=
        congrArg (fun clients => Assoc.lookup clients clientID) (core.root.clientsAt_restored path)
      rw [he]
      exact ha.found path clientID option }

end SubCore

end SkyTree.Subscription
