import SkyTree.Subscription.Shard

/-!
# Topic names and topic filters

Matching compares levels: `+` stands for one level and `#` for every remaining
one. A shared filter `$share/group/filter` is stored under its literal text but
matches through the filter behind the group, so this file also relates the levels
of the text to the levels of that inner filter.
-/

namespace SkyTree.Subscription

open List

def startsWith (text lead : String) : Bool := lead.toList.isPrefixOf text.toList

def hasWildcard (topic : String) : Bool := topic.toList.contains '+' || topic.toList.contains '#'

/-- The loop of `MatchTopicFilter` over the filter levels. -/
def matchLevels : List String → List String → Bool
  | [], names => names.isEmpty
  | level :: rest, names =>
    if level = "#" then rest.isEmpty
    else
      match names with
      | [] => false
      | name :: names => (level = "+" || level = name) && matchLevels rest names

/-- A topic below `$` is closed to filters that do not start with `$` themselves. -/
def rootHidden (filterLevels topicLevels : List String) : Bool :=
  startsWith (topicLevels.headD "") "$" && !startsWith (filterLevels.headD "") "$"

def matchTopicFilter (filter topic : String) : Bool :=
  if filter = "" ∨ topic = "" then false
  else if rootHidden (splitTopicLevels filter) (splitTopicLevels topic) then false
  else matchLevels (splitTopicLevels filter) (splitTopicLevels topic)

def validatePublishTopic (topic : String) : Except String Unit :=
  if topic = "" then .error "invalid publish topic: empty"
  else if (splitTopicLevels topic).any fun level =>
      level = "+" || level = "#" || level.toList.contains '+' || level.toList.contains '#' then
    .error "invalid publish topic: contains wildcard"
  else .ok ()

def allowRootWildcardsForPublish (topicLevels : List String) : Bool :=
  match topicLevels with
  | [] => true
  | level :: _ => !startsWith level "$"

def isShareTopic (shareTopic : String) : Bool := startsWith shareTopic "$share/"

/-- The share group and the filter behind it; a text without a filter parses to nothing. -/
def parseShareTopic (shareTopic : String) : String × String :=
  if isShareTopic shareTopic then
    let shareNameSubTopic := shareTopic.toList.drop "$share/".toList.length
    if shareNameSubTopic.contains '/' then
      (String.ofList (shareNameSubTopic.takeWhile (· ≠ '/')),
        String.ofList ((shareNameSubTopic.dropWhile (· ≠ '/')).drop 1))
    else ("", "")
  else ("", shareTopic)

/-! ## Levels of a text -/

/-- The levels of a text, the empty text having one empty level. -/
def levelsOf (chars : List Char) : List String := (chars.splitOn '/').map String.ofList

@[simp] theorem splitTopicLevels_nil : splitTopicLevels "" = [] := rfl

variable {topic : String}

theorem splitTopicLevels_of_ne (hn : topic ≠ "") : splitTopicLevels topic = levelsOf topic.toList :=
  if_neg hn

theorem levelsOf_ne_nil (chars : List Char) : levelsOf chars ≠ [] := by
  simp [levelsOf, splitOn_ne_nil]

theorem levelsOf_injective : Function.Injective levelsOf := by
  intro first second he
  have hp : first.splitOn '/' = second.splitOn '/' :=
    map_injective_iff.mpr (fun _ _ => String.ofList_injective) he
  calc first = List.intercalate ['/'] (first.splitOn '/') := (intercalate_splitOn '/').symm
    _ = List.intercalate ['/'] (second.splitOn '/') := by rw [hp]
    _ = second := intercalate_splitOn '/'

variable {chars : List Char}

theorem levelsOf_of_not_mem (hu : '/' ∉ chars) : levelsOf chars = [String.ofList chars] := by
  simp [levelsOf, splitOn_eq_singleton hu]

theorem levelsOf_append_cons (hu : '/' ∉ chars) (rest : List Char) :
    levelsOf (chars ++ '/' :: rest) = String.ofList chars :: levelsOf rest := by
  simp [levelsOf, splitOn_append_cons_self_of_not_mem hu]

theorem levelsOf_append {before : List Char} (hu : '/' ∉ before) {first : String}
    {rest : List String} (hl : levelsOf chars = first :: rest) :
    levelsOf (before ++ chars) = String.ofList (before ++ first.toList) :: rest := by
  obtain ⟨part, parts, split, rfl, rfl⟩ := map_eq_cons_iff.mp hl
  have hj : (before ++ chars).splitOn '/' = (before ++ part) :: parts := by
    clear hl
    induction before with
    | nil => exact split
    | cons head before ih =>
      rw [mem_cons, not_or] at hu
      rw [cons_append, splitOn_cons_eq_if_modifyHead, ih hu.2]
      simp [Ne.symm hu.1]
  simp [levelsOf, hj]

theorem exists_splitTopicLevels {levels : List String} (hs : levels ≠ []) (hn : levels ≠ [""])
    (hu : ∀ level ∈ levels, '/' ∉ level.toList) : ∃ topic, splitTopicLevels topic = levels := by
  have hj : levelsOf (['/'].intercalate (levels.map String.toList)) = levels := by
    rw [levelsOf, splitOn_intercalate '/' (by simpa using hu) (by simpa using hs), map_map]
    simp [Function.comp_def]
  refine ⟨String.ofList (['/'].intercalate (levels.map String.toList)), ?_⟩
  rw [splitTopicLevels_of_ne, String.toList_ofList, hj]
  intro bare
  rw [String.ofList_eq_empty_iff.mp bare] at hj
  exact hn hj.symm

@[simp] theorem splitTopicLevels_eq_nil : splitTopicLevels topic = [] ↔ topic = "" := by
  constructor
  · intro bare
    by_contra hn
    rw [splitTopicLevels_of_ne hn] at bare
    exact levelsOf_ne_nil _ bare
  · rintro rfl
    rfl

theorem splitTopicLevels_injective : Function.Injective splitTopicLevels := by
  intro first second he
  by_cases hn : first = ""
  · subst hn
    exact (splitTopicLevels_eq_nil.mp he.symm).symm
  · by_cases ho : second = ""
    · subst ho
      exact splitTopicLevels_eq_nil.mp he
    · rw [splitTopicLevels_of_ne hn, splitTopicLevels_of_ne ho] at he
      exact String.toList_inj.mp (levelsOf_injective he)

theorem mem_splitOn_iff {separator char : Char} (hne : char ≠ separator) (chars : List Char) :
    (∃ part ∈ chars.splitOn separator, char ∈ part) ↔ char ∈ chars := by
  induction chars with
  | nil => simp
  | cons head rest ih =>
    rw [splitOn_cons_eq_if_modifyHead, mem_cons, ← ih]
    by_cases cut : head = separator
    · subst cut
      simp [hne]
    · cases parts : rest.splitOn separator with
      | nil => exact absurd parts (splitOn_ne_nil _ _)
      | cons part parts => simp [cut, or_assoc]

theorem not_mem_of_mem_splitOn {separator : Char} {part : List Char}
    (hm : part ∈ chars.splitOn separator) : separator ∉ part := by
  induction chars generalizing part with
  | nil =>
    obtain rfl : part = [] := by simpa using hm
    simp
  | cons head rest ih =>
    rw [splitOn_cons_eq_if_modifyHead] at hm
    by_cases cut : head = separator
    · simp only [cut, beq_self_eq_true, if_true, mem_cons] at hm
      rcases hm with rfl | later
      · simp
      · exact ih later
    · cases split : rest.splitOn separator with
      | nil => exact absurd split (splitOn_ne_nil _ _)
      | cons first parts =>
        have hl {later : List Char} (hi : later ∈ first :: parts) : separator ∉ later :=
          ih (split ▸ hi)
        simp only [split, beq_eq_false_iff_ne.mpr cut, Bool.false_eq_true, if_false,
          modifyHead_cons, mem_cons] at hm
        rcases hm with rfl | later
        · simpa [Ne.symm cut] using hl mem_cons_self
        · exact hl (mem_cons_of_mem _ later)

theorem mem_level_iff {char : Char} (hne : char ≠ '/') (topic : String) :
    (∃ level ∈ splitTopicLevels topic, char ∈ level.toList) ↔ char ∈ topic.toList := by
  by_cases hn : topic = ""
  · subst hn
    simp
  · rw [splitTopicLevels_of_ne hn, ← mem_splitOn_iff hne]
    simp [levelsOf]

/-! ## Wildcards -/

/-- No level of a topic name is a wildcard. -/
def Concrete (names : List String) : Prop := "+" ∉ names ∧ "#" ∉ names

theorem Concrete.tail {name : String} {names : List String} (hc : Concrete (name :: names)) :
    Concrete names :=
  ⟨fun hp => hc.1 (.tail _ hp), fun hh => hc.2 (.tail _ hh)⟩

theorem concrete_of_hasWildcard (hp : hasWildcard topic = false) :
    Concrete (splitTopicLevels topic) := by
  simp only [hasWildcard, Bool.or_eq_false_iff, contains_eq_mem, decide_eq_false_iff_not] at hp
  constructor
  · intro plus
    exact hp.1 ((mem_level_iff (by decide) topic).mp ⟨"+", plus, by simp⟩)
  · intro hh
    exact hp.2 ((mem_level_iff (by decide) topic).mp ⟨"#", hh, by simp⟩)

theorem validatePublishTopic_eq_ok :
    validatePublishTopic topic = .ok () ↔ topic ≠ "" ∧ hasWildcard topic = false := by
  have plus : (∃ level ∈ splitTopicLevels topic, '+' ∈ level.toList) ↔ '+' ∈ topic.toList :=
    mem_level_iff (by decide) topic
  have hash : (∃ level ∈ splitTopicLevels topic, '#' ∈ level.toList) ↔ '#' ∈ topic.toList :=
    mem_level_iff (by decide) topic
  have found : ((splitTopicLevels topic).any fun level =>
      level = "+" || level = "#" || level.toList.contains '+' || level.toList.contains '#') =
      hasWildcard topic := by
    rw [Bool.eq_iff_iff]
    simp only [hasWildcard, any_eq_true, Bool.or_eq_true, decide_eq_true_eq,
      contains_eq_mem, ← plus, ← hash]
    constructor
    · rintro ⟨level, member, ((rfl | rfl) | inside) | inside⟩
      · exact .inl ⟨"+", member, by simp⟩
      · exact .inr ⟨"#", member, by simp⟩
      · exact .inl ⟨level, member, inside⟩
      · exact .inr ⟨level, member, inside⟩
    · rintro (⟨level, member, inside⟩ | ⟨level, member, inside⟩)
      · exact ⟨level, member, .inl (.inr inside)⟩
      · exact ⟨level, member, .inr inside⟩
  rw [validatePublishTopic, found]
  by_cases named : topic = ""
  · simp [named]
  · cases hasWildcard topic <;> simp [named]

/-! ## Matching on levels -/

/-- `MatchTopicFilter` behind its checks for empty texts. -/
def matchTopicLevels (filterLevels topicLevels : List String) : Bool :=
  !rootHidden filterLevels topicLevels && matchLevels filterLevels topicLevels

variable {filter : String}

theorem matchTopicFilter_iff : matchTopicFilter filter topic = true ↔ filter ≠ "" ∧ topic ≠ "" ∧
        matchTopicLevels (splitTopicLevels filter) (splitTopicLevels topic) = true := by
  unfold matchTopicFilter matchTopicLevels
  by_cases hn : filter = "" ∨ topic = ""
  · rcases hn with rfl | rfl <;> simp
  · rw [if_neg hn]
    rw [not_or] at hn
    cases rootHidden (splitTopicLevels filter) (splitTopicLevels topic) <;> simp [hn]

/-! ## Shared filters -/

theorem isShareTopic_iff :
    isShareTopic filter = true ↔ ∃ rest, filter.toList = "$share".toList ++ '/' :: rest := by
  rw [isShareTopic, startsWith, isPrefixOf_iff_prefix]
  constructor
  · rintro ⟨rest, ht⟩
    exact ⟨rest, ht.symm⟩
  · rintro ⟨rest, ht⟩
    exact ⟨rest, ht.symm⟩

theorem ne_empty_of_isShareTopic (hs : isShareTopic filter = true) : filter ≠ "" := by
  rintro rfl
  exact absurd hs (by decide)

theorem eq_takeWhile_append_cons (cut : '/' ∈ chars) :
    chars = chars.takeWhile (· ≠ '/') ++ '/' :: (chars.dropWhile (· ≠ '/')).drop 1 := by
  induction chars with
  | nil => simp at cut
  | cons head rest ih =>
    by_cases hh : head = '/'
    · simp [hh]
    · have hl : '/' ∈ rest := by simpa [Ne.symm hh] using cut
      simpa [hh] using ih hl

theorem not_mem_takeWhile (chars : List Char) : '/' ∉ chars.takeWhile (· ≠ '/') := by
  intro hm
  have hk := mem_takeWhile_imp hm
  simp at hk

section

variable (hs : isShareTopic filter = true)

include hs

theorem isShareTopic_text_cases :
    (∃ name : String, '/' ∉ name.toList ∧ filter.toList = "$share".toList ++ '/' :: name.toList ∧
        parseShareTopic filter = ("", "")) ∨
      ∃ group inner : String, '/' ∉ group.toList ∧
        filter.toList = "$share".toList ++ '/' :: (group.toList ++ '/' :: inner.toList) ∧
        parseShareTopic filter = (group, inner) := by
  obtain ⟨rest, ht⟩ := isShareTopic_iff.mp hs
  have hd : filter.toList.drop "$share/".toList.length = rest := by
    rw [ht]
    rfl
  rw [parseShareTopic, if_pos hs, hd, ht]
  by_cases cut : '/' ∈ rest
  · right
    refine ⟨String.ofList (rest.takeWhile (· ≠ '/')),
      String.ofList ((rest.dropWhile (· ≠ '/')).drop 1), ?_, ?_, by simp [cut]⟩
    · rw [String.toList_ofList]
      exact not_mem_takeWhile rest
    · simp only [String.toList_ofList]
      rw [← eq_takeWhile_append_cons cut]
  · left
    exact ⟨String.ofList rest, by simpa using cut, by simp only [String.toList_ofList],
      by simp [cut]⟩

theorem isShareTopic_cases :
    (∃ name, splitTopicLevels filter = ["$share", name] ∧ parseShareTopic filter = ("", "")) ∨
      ∃ group inner, splitTopicLevels filter = "$share" :: group :: levelsOf inner.toList ∧
        parseShareTopic filter = (group, inner) := by
  have hl := splitTopicLevels_of_ne (ne_empty_of_isShareTopic hs)
  rcases isShareTopic_text_cases hs with
    ⟨name, hu, ht, hp⟩ | ⟨group, inner, hu, ht, hp⟩
  · refine .inl ⟨name, ?_, hp⟩
    rw [hl, ht, levelsOf_append_cons (by decide), levelsOf_of_not_mem hu,
      String.ofList_toList, String.ofList_toList]
  · refine .inr ⟨group, inner, ?_, hp⟩
    rw [hl, ht, levelsOf_append_cons (by decide), levelsOf_append_cons hu,
      String.ofList_toList, String.ofList_toList]

theorem exists_levels_of_isShareTopic : ∃ rest, splitTopicLevels filter = "$share" :: rest := by
  rcases isShareTopic_cases hs with ⟨name, hl, -⟩ | ⟨group, inner, hl, -⟩
  · exact ⟨_, hl⟩
  · exact ⟨_, hl⟩

theorem head_of_matchTopicFilter_shared (hm : matchTopicFilter filter topic = true) :
    (splitTopicLevels topic).head? = some "$share" := by
  obtain ⟨rest, hl⟩ := exists_levels_of_isShareTopic hs
  obtain ⟨-, -, levels⟩ := matchTopicFilter_iff.mp hm
  have byLevels := (Bool.and_eq_true_iff.mp levels).2
  rw [hl] at byLevels
  cases names : splitTopicLevels topic with
  | nil => simp [names, matchLevels] at byLevels
  | cons name rest =>
    have he : "$share" = name := by
      simp [names, matchLevels] at byLevels
      exact byLevels.1
    rw [he]
    rfl

end

theorem isShareTopic_of_levels {group : String} {inner : List String}
    (hl : splitTopicLevels filter = "$share" :: group :: inner) :
    isShareTopic filter = true := by
  have hn : filter ≠ "" := by
    rintro rfl
    simp at hl
  rw [splitTopicLevels_of_ne hn, levelsOf, map_eq_cons_iff] at hl
  obtain ⟨share, parts, split, shareText, hl⟩ := hl
  obtain ⟨name, parts, rfl, -, -⟩ := map_eq_cons_iff.mp hl
  refine isShareTopic_iff.mpr ⟨List.intercalate ['/'] (name :: parts), ?_⟩
  calc filter.toList = List.intercalate ['/'] (filter.toList.splitOn '/') :=
        (intercalate_splitOn '/').symm
    _ = share ++ ['/'] ++ List.intercalate ['/'] (name :: parts) := by
        rw [split, intercalate_cons_cons]
    _ = "$share".toList ++ '/' :: List.intercalate ['/'] (name :: parts) := by
        rw [← shareText, String.toList_ofList, append_assoc]
        rfl

/-- A topic name is never matched by the single empty level of an empty filter. -/
theorem not_matchLevels_levelsOf_nil (hn : topic ≠ "") :
    matchLevels (levelsOf []) (splitTopicLevels topic) = false := by
  rw [splitTopicLevels_of_ne hn]
  by_contra hm
  have hs : levelsOf topic.toList = levelsOf [] := by
    cases hl : levelsOf topic.toList with
    | nil => exact absurd hl (levelsOf_ne_nil _)
    | cons name names =>
      rw [hl] at hm
      have he : "" = name ∧ names = [] := by simpa [levelsOf, matchLevels] using hm
      rw [← he.1, he.2]
      rfl
  exact hn (String.toList_eq_nil_iff.mp (levelsOf_injective hs))

theorem matchTopicFilter_shared_iff (hn : topic ≠ "") :
    (isShareTopic filter = true ∧ matchTopicFilter (parseShareTopic filter).2 topic = true) ↔
      ∃ group inner, splitTopicLevels filter = "$share" :: group :: inner ∧
        matchTopicLevels inner (splitTopicLevels topic) = true := by
  constructor
  · rintro ⟨hs, hm⟩
    obtain ⟨hf, -, levels⟩ := matchTopicFilter_iff.mp hm
    rcases isShareTopic_cases hs with ⟨name, -, hp⟩ | ⟨group, inner, hl, hp⟩
    · simp [hp] at hf
    · rw [hp] at hf levels
      rw [splitTopicLevels_of_ne hf] at levels
      exact ⟨group, _, hl, levels⟩
  · rintro ⟨group, path, hl, levels⟩
    have hs := isShareTopic_of_levels hl
    have hm : matchLevels path (splitTopicLevels topic) = true := (Bool.and_eq_true_iff.mp levels).2
    refine ⟨hs, ?_⟩
    rcases isShareTopic_cases hs with ⟨name, short, -⟩ | ⟨group', inner, cut, hp⟩
    · -- `$share/name` has no filter, and no topic has no levels
      obtain ⟨-, rfl⟩ : group = name ∧ path = [] := by simpa [short] using hl.symm
      simp [matchLevels, hn] at hm
    · obtain ⟨-, rfl⟩ : group' = group ∧ levelsOf inner.toList = path := by
        simpa [cut] using hl
      have hf : inner ≠ "" := by
        rintro rfl
        exact absurd hm (by simp [not_matchLevels_levelsOf_nil hn])
      rw [hp, matchTopicFilter_iff, splitTopicLevels_of_ne hf]
      exact ⟨hf, hn, levels⟩

end SkyTree.Subscription
