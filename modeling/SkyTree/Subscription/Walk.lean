import SkyTree.Subscription.Trie

/-!
# The walk that finds the matching nodes

A publish walks the trie along its topic and takes `+` and `#` children on the way.
The walk visits the nodes at a list of candidate paths that depends on the topic
only, and those candidates are the filters that match the topic. Below `$share`
the same walk starts again at every group.
-/

namespace SkyTree.Subscription

open Foundation List

namespace TreeNode

def matchingHashChild (node : TreeNode) (depth : Nat) (rootWildcardsAllowed : Bool) :
    Option TreeNode :=
  if depth = 0 ∧ rootWildcardsAllowed = false then none else node.child "#"

/-- The walk below a node; the list holds the levels of the topic from `depth` on. -/
def matchNode (rootWildcardsAllowed : Bool) : Nat → List String → TreeNode → List TreeNode
  | depth, [], node => (node.matchingHashChild depth rootWildcardsAllowed).toList ++ [node]
  | depth, level :: rest, node =>
    (node.matchingHashChild depth rootWildcardsAllowed).toList ++
      (match node.child level with
        | some child => matchNode rootWildcardsAllowed (depth + 1) rest child
        | none => []) ++
      match node.child "+" with
      | some plusChild =>
        if depth ≠ 0 ∨ rootWildcardsAllowed = true then
          matchNode rootWildcardsAllowed (depth + 1) rest plusChild
        else []
      | none => []

/-- Start the walk again at every group below `$share`. -/
def walkSharedSubscriptionRoots (root : TreeNode) (visit : TreeNode → List TreeNode) :
    List TreeNode :=
  match root.child "$share" with
  | none => []
  | some shareRoot => shareRoot.childNode.flatMap fun group => visit group.2

end TreeNode

def SubCore.walkMatchingTopicNodes (core : SubCore) (topic : String) : List TreeNode :=
  match validatePublishTopic topic with
  | .error _ => []
  | .ok () =>
    let topicLevels := splitTopicLevels topic
    let walk := TreeNode.matchNode (allowRootWildcardsForPublish topicLevels) 0 topicLevels
    core.root.walkSharedSubscriptionRoots walk ++ walk core.root

/-! ## Candidate paths -/

/-- The path of the `#` child where wildcards may be taken. -/
def hashPaths (wildcards : Bool) : List (List String) := if wildcards then [["#"]] else []

/-- The paths the walk follows; `wildcards` tells whether the first level may be one. -/
def candidates : Bool → List String → List (List String)
  | wildcards, [] => hashPaths wildcards ++ [[]]
  | wildcards, level :: rest =>
    hashPaths wildcards ++ (candidates true rest).map (level :: ·) ++
      if wildcards then (candidates true rest).map ("+" :: ·) else []

namespace TreeNode

theorem filterMap_descend_cons (level : String) (paths : List (List String)) (node : TreeNode) :
    (paths.map (level :: ·)).filterMap (fun path => descend path node) = match node.child level with
      | none => []
      | some next => paths.filterMap fun path => descend path next := by
  rw [filterMap_map]
  cases hf : node.child level with
  | none => exact filterMap_eq_nil_iff.mpr fun path _ => by simp [descend, hf]
  | some next => exact filterMap_congr fun path _ => by simp [descend, hf]

theorem toList_matchingHashChild (node : TreeNode) (depth : Nat) (wild : Bool) :
    (node.matchingHashChild depth wild).toList = (hashPaths (decide (depth ≠ 0) || wild)).filterMap
        fun path => descend path node := by
  have hh : [["#"]].filterMap (fun path => descend path node) = (node.child "#").toList := by
    cases hf : node.child "#" <;> simp [descend, hf]
  unfold matchingHashChild hashPaths
  by_cases hr : depth = 0 <;> cases wild <;> simp [hr, hh]

theorem matchNode_eq_filterMap (wild : Bool) (depth : Nat) (lvs : List String) (node : TreeNode) :
    matchNode wild depth lvs node = (candidates (decide (depth ≠ 0) || wild) lvs).filterMap
        fun path => descend path node := by
  induction lvs generalizing depth node with
  | nil =>
    rw [matchNode, candidates, filterMap_append, toList_matchingHashChild]
    simp [descend]
  | cons level rest ih =>
    have hb (next : TreeNode) : matchNode wild (depth + 1) rest next =
        (candidates true rest).filterMap fun path => descend path next := by
      simpa using ih (depth + 1) next
    rw [matchNode, candidates, filterMap_append, filterMap_append,
      toList_matchingHashChild, filterMap_descend_cons]
    congr 1
    · congr 1
      cases node.child level <;> simp [hb]
    · by_cases ht : depth ≠ 0 ∨ wild = true
      · rw [if_pos (by simpa using ht), filterMap_descend_cons]
        cases node.child "+" <;> simp [hb, ht]
      · rw [if_neg (by simpa using ht)]
        cases node.child "+" <;> simp [ht]

end TreeNode

variable {lvs : List String}

theorem mem_candidates_cons {level first : String} {rest : List String} {wildcards : Bool}
    (hp : level ≠ "#") :
    first :: rest ∈ candidates wildcards (level :: lvs) ↔
      if first = "#" then wildcards = true ∧ rest = []
      else (first = level ∨ wildcards = true ∧ first = "+") ∧ rest ∈ candidates true lvs := by
  by_cases hh : first = "#"
  · cases wildcards <;> simp [candidates, hashPaths, hh, hp]
  · cases wildcards <;> simp [candidates, hashPaths, hh, or_and_right, eq_comm, and_comm]

theorem head_of_mem_candidates {rest : List String} {first : String} {wildcards : Bool}
    (hc : Concrete lvs) (hm : first :: rest ∈ candidates wildcards lvs)
    (noPlus : first ≠ "+") (noHash : first ≠ "#") : lvs.head? = some first := by
  cases lvs with
  | nil => cases wildcards <;> simp [candidates, hashPaths, noHash] at hm
  | cons level lvs =>
    have hp : level ≠ "#" := fun he => hc.2 (he ▸ .head _)
    rw [mem_candidates_cons hp, if_neg noHash] at hm
    rcases hm.1 with hl | ⟨-, plus⟩
    · rw [hl]
      rfl
    · exact absurd plus noPlus

variable {path : List String}

theorem mem_candidates_true (hc : Concrete lvs) :
    path ∈ candidates true lvs ↔ matchLevels path lvs = true := by
  induction lvs generalizing path with
  | nil =>
    cases path with
    | nil => simp [candidates, hashPaths, matchLevels]
    | cons first rest =>
      by_cases hh : first = "#" <;> simp [candidates, hashPaths, matchLevels, hh]
  | cons level lvs ih =>
    have hp : level ≠ "#" := fun he => hc.2 (he ▸ .head _)
    cases path with
    | nil => simp [candidates, hashPaths, matchLevels]
    | cons first rest =>
      rw [mem_candidates_cons hp, ih hc.tail, matchLevels]
      by_cases hh : first = "#"
      · simp [hh]
      · simp [hh, or_comm]

theorem mem_candidates_false (hc : Concrete lvs) : path ∈ candidates false lvs ↔
      matchLevels path lvs = true ∧ path.head? ≠ some "+" ∧ path.head? ≠ some "#" := by
  cases lvs with
  | nil =>
    cases path with
    | nil => simp [candidates, hashPaths, matchLevels]
    | cons first rest => by_cases hh : first = "#" <;> simp [candidates, hashPaths, matchLevels, hh]
  | cons level lvs =>
    have hp : level ≠ "#" := fun he => hc.2 (he ▸ .head _)
    have noPlus : level ≠ "+" := fun he => hc.1 (he ▸ .head _)
    cases path with
    | nil => simp [candidates, hashPaths, matchLevels]
    | cons first rest =>
      rw [mem_candidates_cons hp, mem_candidates_true hc.tail, matchLevels]
      by_cases hh : first = "#"
      · simp [hh]
      · by_cases hl : first = level
        · simp [hl, noPlus, hp]
        · by_cases plus : first = "+"
          · simp [plus, Ne.symm noPlus]
          · simp [hh, hl, plus]

theorem nodup_candidates (hc : Concrete lvs) (wildcards : Bool) :
    (candidates wildcards lvs).Nodup := by
  induction lvs generalizing wildcards with
  | nil => cases wildcards <;> decide
  | cons level rest ih =>
    have hp : level ≠ "#" := fun he => hc.2 (he ▸ .head _)
    have noPlus : level ≠ "+" := fun he => hc.1 (he ▸ .head _)
    have hb := ih hc.tail true
    have prefixed (first : String) : ((candidates true rest).map (first :: ·)).Nodup :=
      hb.map (cons_injective)
    rw [candidates]
    refine List.Nodup.append (List.Nodup.append ?_ (prefixed level) ?_) ?_ ?_
    · cases wildcards <;> decide
    · cases wildcards <;> simp [hashPaths, hp]
    · cases wildcards with
      | false => exact nodup_nil
      | true => exact prefixed "+"
    · cases wildcards <;> simp [hashPaths, disjoint_left, Ne.symm noPlus]

/-- The walk from a root takes the filters `MatchTopicFilter` accepts, the `$` rule included. -/
theorem mem_candidates_iff (hc : Concrete lvs) (hf : lvs ≠ []) :
    path ∈ candidates (allowRootWildcardsForPublish lvs) lvs ↔
      matchTopicLevels path lvs = true := by
  obtain ⟨name, names, rfl⟩ := exists_cons_of_ne_nil hf
  unfold matchTopicLevels rootHidden allowRootWildcardsForPublish
  cases hd : startsWith name "$" with
  | false => simpa [hd] using mem_candidates_true hc
  | true =>
    simp only [hd, Bool.not_true]
    rw [mem_candidates_false hc]
    cases path with
    | nil => simp [matchLevels]
    | cons first rest =>
      have hp : startsWith "+" "$" = false := by decide
      have hh : startsWith "#" "$" = false := by decide
      by_cases isPlus : first = "+"
      · simp [isPlus, hp, hd]
      · by_cases isHash : first = "#"
        · simp [isHash, hh, hd]
        · by_cases hl : first = name
          · subst hl
            simp [hd, isPlus, isHash]
          · simp [matchLevels, isPlus, isHash, hl]

/-! ## The visited nodes -/

namespace SubCore

variable (core : SubCore)

def shareGroups : List String := (core.root.child "$share").elim [] TreeNode.names

def walkedPaths (topic : String) : List (List String) :=
  let levels := splitTopicLevels topic
  let paths := candidates (allowRootWildcardsForPublish levels) levels
  (core.shareGroups.flatMap fun group => paths.map fun path => "$share" :: group :: path) ++ paths

theorem walkMatchingTopicNodes_eq_filterMap (hd : core.root.Distinct) {topic : String}
    (hv : validatePublishTopic topic = .ok ()) :
    core.walkMatchingTopicNodes topic =
      (core.walkedPaths topic).filterMap fun path => TreeNode.descend path core.root := by
  have walk (node : TreeNode) :
      TreeNode.matchNode (allowRootWildcardsForPublish (splitTopicLevels topic)) 0
        (splitTopicLevels topic) node =
      (candidates (allowRootWildcardsForPublish (splitTopicLevels topic))
        (splitTopicLevels topic)).filterMap fun path => TreeNode.descend path node := by
    simpa using TreeNode.matchNode_eq_filterMap _ 0 _ node
  simp only [walkMatchingTopicNodes, hv, walkedPaths, filterMap_append, walk]
  congr 1
  unfold TreeNode.walkSharedSubscriptionRoots shareGroups
  cases hs : core.root.child "$share" with
  | none => rfl
  | some shareRoot =>
    have inShare := (hd.child hs).names
    simp only [Option.elim_some, TreeNode.names, flatMap_map, filterMap_flatMap]
    apply flatMap_congr
    rintro ⟨group, next⟩ hm
    have hf := (TreeNode.mem_childNode_iff inShare).mp hm
    rw [filterMap_map, walk]
    exact filterMap_congr fun path _ => by simp [TreeNode.descend, hs, hf]

end SubCore

end SkyTree.Subscription
