import SkyTree.Subscription.TopicFilter

/-!
# What the subscription trie holds at a path

The trie is read through `clientsAt`, the subscriptions stored at the end of a
path. Storing and removing a subscription change that reading at one path only.
The children of every node have distinct names, which is what a Go map gives and
what the iteration over share groups relies on.
-/

namespace SkyTree.Subscription

open Foundation List

namespace TreeNode

def client : TreeNode → Assoc ClientID SubOption
  | mk _ _ client _ => client

def descend : List String → TreeNode → Option TreeNode
  | [], node => some node
  | level :: rest, node => (node.child level).bind (descend rest)

def clientsAt (path : List String) (node : TreeNode) : Assoc ClientID SubOption :=
  (node.descend path).elim .empty client

@[simp] theorem client_setChild (node : TreeNode) (level : String) (next : TreeNode) :
    (node.setChild level next).client = node.client := by
  cases node
  rfl

@[simp] theorem clientsAt_nil (node : TreeNode) : node.clientsAt [] = node.client := rfl

theorem clientsAt_cons (level : String) (rest : List String) (node : TreeNode) :
    node.clientsAt (level :: rest) = (node.child level).elim .empty (clientsAt rest) := by
  rw [clientsAt, descend]
  cases node.child level <;> rfl

theorem clientsAt_getD_fresh (level : String) (rest : List String) (node : TreeNode) :
    ((node.child level).getD (fresh level)).clientsAt rest = node.clientsAt (level :: rest) := by
  rw [clientsAt_cons]
  cases node.child level with
  | none => cases rest <;> rfl
  | some next => rfl

theorem clientsAt_setChild (level first : String) (rest : List String) (node next : TreeNode) :
    (node.setChild level next).clientsAt (first :: rest) =
      if first = level then next.clientsAt rest else node.clientsAt (first :: rest) := by
  rw [clientsAt_cons, clientsAt_cons, child_setChild]
  by_cases he : first = level <;> simp [he]

theorem clientsAt_insert (cid : ClientID) (opt : SubOption) (path lvs : List String)
    (node : TreeNode) :
    (node.insert cid opt lvs).clientsAt path =
      if path = lvs then Assoc.set (node.clientsAt path) cid opt
      else node.clientsAt path := by
  induction lvs generalizing path node with
  | nil =>
    cases node
    cases path <;> rfl
  | cons level lvs ih =>
    cases path with
    | nil => simp [insert]
    | cons first rest =>
      rw [insert, clientsAt_setChild, ih, clientsAt_getD_fresh]
      by_cases he : first = level <;> simp [he]

variable {change : Assoc ClientID SubOption → Assoc ClientID SubOption} {lvs : List String}
  {node : TreeNode}

theorem clientsAt_modifyAt {changed : TreeNode}
    (hm : node.modifyAt change lvs = some changed) (path : List String) :
    changed.clientsAt path =
      if path = lvs then change (node.clientsAt path) else node.clientsAt path := by
  induction lvs generalizing path node changed with
  | nil =>
    cases node
    cases hm
    cases path <;> rfl
  | cons level lvs ih =>
    obtain ⟨next, inner, hf, mod, rfl⟩ := modifyAt_cons_eq_some.mp hm
    cases path with
    | nil => simp
    | cons first rest =>
      rw [clientsAt_setChild, ih mod]
      by_cases he : first = level
      · simp [he, clientsAt_cons, hf]
      · simp [he]

theorem clientsAt_of_modifyAt_eq_none (hm : node.modifyAt change lvs = none) :
    node.clientsAt lvs = .empty := by
  induction lvs generalizing node with
  | nil =>
    cases node
    simp [modifyAt] at hm
  | cons level lvs ih =>
    rw [clientsAt_cons]
    cases hf : node.child level with
    | none => rfl
    | some next => exact ih (by simpa [modifyAt, hf] using hm)

/-! ## Distinct children -/

def names (node : TreeNode) : List String := node.childNode.map Prod.fst

def Distinct (node : TreeNode) : Prop :=
  ∀ path target, node.descend path = some target → target.names.Nodup

theorem Distinct.names {node : TreeNode} (hd : node.Distinct) : node.names.Nodup := hd [] node rfl

theorem Distinct.child {node next : TreeNode} {level : String} (hd : node.Distinct)
    (hf : node.child level = some next) : next.Distinct :=
  fun path target hr => hd (level :: path) target (by simpa [descend, hf] using hr)

theorem distinct_fresh (level : String) : (fresh level).Distinct := by
  intro path target hr
  cases path with
  | nil =>
    cases hr
    exact nodup_nil
  | cons first rest => simp [descend, child, childNode, childMap, fresh] at hr

theorem names_replaceChild (level : String) (next : TreeNode) (kids : List (String × TreeNode)) :
    (replaceChild level next kids).map Prod.fst =
      if level ∈ kids.map Prod.fst then kids.map Prod.fst
      else kids.map Prod.fst ++ [level] := by
  induction kids with
  | nil => simp [replaceChild]
  | cons head rest ih =>
    obtain ⟨name, node⟩ := head
    by_cases hit : name = level
    · simp [replaceChild, hit]
    · rw [replaceChild, if_neg hit, map_cons, ih]
      by_cases hm : level ∈ rest.map Prod.fst <;> simp [hm, Ne.symm hit]

theorem nodup_names_setChild (hd : node.names.Nodup) (level : String) (next : TreeNode) :
    (node.setChild level next).names.Nodup := by
  obtain ⟨topicSection, topic, client, kids⟩ := node
  change ((replaceChild level next (kids.getD [])).map Prod.fst).Nodup
  rw [names_replaceChild]
  split
  next => exact hd
  next missing => exact List.Nodup.append hd (nodup_singleton level) (by simpa using missing)

theorem Distinct.setChild {node next : TreeNode} (hd : node.Distinct)
    (hi : next.Distinct) (level : String) : (node.setChild level next).Distinct := by
  intro path target hr
  cases path with
  | nil =>
    cases hr
    exact nodup_names_setChild hd.names level next
  | cons first rest =>
    by_cases he : first = level
    · exact hi rest target (by simpa [descend, he] using hr)
    · exact hd (first :: rest) target (by simpa [descend, he] using hr)

theorem Distinct.of_childNode {o : TreeNode} (hd : node.Distinct)
    (he : o.childNode = node.childNode) : o.Distinct := by
  intro path target hr
  cases path with
  | nil =>
    cases hr
    exact (congrArg (fun kids => (kids.map Prod.fst).Nodup) he).mpr hd.names
  | cons first rest =>
    rw [descend, TreeNode.child, he] at hr
    exact hd (first :: rest) target hr

theorem Distinct.insert {node : TreeNode} (hd : node.Distinct) (cid : ClientID)
    (opt : SubOption) (lvs : List String) :
    (node.insert cid opt lvs).Distinct := by
  induction lvs generalizing node with
  | nil =>
    cases node
    exact hd.of_childNode rfl
  | cons level lvs ih =>
    refine hd.setChild (ih ?_) level
    cases hf : node.child level with
    | none => exact distinct_fresh level
    | some next => exact hd.child hf

theorem Distinct.modifyAt {change : Assoc ClientID SubOption → Assoc ClientID SubOption}
    {node changed : TreeNode} {lvs : List String} (hd : node.Distinct)
    (hm : node.modifyAt change lvs = some changed) : changed.Distinct := by
  induction lvs generalizing node changed with
  | nil =>
    cases node
    cases hm
    exact hd.of_childNode rfl
  | cons level lvs ih =>
    obtain ⟨next, inner, hf, mod, rfl⟩ := modifyAt_cons_eq_some.mp hm
    exact hd.setChild (ih (hd.child hf) mod) level

theorem mem_childNode_iff (hd : node.names.Nodup) {level : String} {next : TreeNode} :
    (level, next) ∈ node.childNode ↔ node.child level = some next := by
  unfold names at hd
  unfold child
  generalize node.childNode = kids at hd ⊢
  induction kids with
  | nil => simp
  | cons head rest ih =>
    obtain ⟨name, node⟩ := head
    rw [map_cons, nodup_cons] at hd
    rw [lookup_cons, mem_cons]
    by_cases he : level = name
    · subst he
      have lost : (level, next) ∉ rest := fun hm => hd.1 (mem_map.mpr ⟨_, hm, rfl⟩)
      simp [lost, eq_comm]
    · simp [he, ih hd.2]

end TreeNode

end SkyTree.Subscription
