import SkyTree.Delivery.ShareGroupTasks
import SkyTree.Subscription.Reads

/-!
# The grammar of topic filters

The precheck of a SUBSCRIBE decides the MQTT grammar, and the subscription center accepts what
it accepts. Three parsers cut a shared filter into its group and its filter; on the accepted
filters they find the same parts.
-/

namespace SkyTree.Delivery.Router

open Foundation Subscription List

/-! ## The grammar -/

/-- `#` is the whole last level and `+` is a whole level. -/
structure FilterLevels (levels : List String) : Prop where
  hash : ∀ level rest, level :: rest <:+ levels → '#' ∈ level.toList → level = "#" ∧ rest = []
  plus : ∀ level ∈ levels, '+' ∈ level.toList → level = "+"

structure OrdinaryFilter (filter : String) : Prop where
  named : filter ≠ ""
  levels : FilterLevels (levelsOf filter.toList)

/-- The topic filters of MQTT 5: what follows the group of a shared one is an ordinary one. -/
inductive TopicFilter (filter : String) : Prop where
  | ordinary (hs : startsWith filter "$share/" = false) (ho : OrdinaryFilter filter)
  | shared (group inner : String) (ht : filter = "$share/" ++ group ++ "/" ++ inner)
      (hn : group ≠ "") (hp : ∀ char ∈ ['/', '+', '#'], char ∉ group.toList)
      (ho : OrdinaryFilter inner)

theorem filterLevels_cons {level : String} {rest : List String} : FilterLevels (level :: rest) ↔
    ('#' ∈ level.toList → level = "#" ∧ rest = []) ∧ ('+' ∈ level.toList → level = "+") ∧
      FilterLevels rest := by
  constructor
  · intro hl
    exact ⟨hl.hash level rest suffix_rfl, hl.plus level mem_cons_self,
      fun other tail ht => hl.hash other tail (ht.trans (suffix_cons level rest)),
      fun other hm => hl.plus other (mem_cons_of_mem level hm)⟩
  · rintro ⟨hh, hp, hr⟩
    refine ⟨fun other tail ht => ?_, fun other hm => ?_⟩
    · rcases suffix_cons_iff.mp ht with he | ht
      · cases he
        exact hh
      · exact hr.hash other tail ht
    · rcases mem_cons.mp hm with rfl | hm
      · exact hp
      · exact hr.plus other hm

theorem validateFilterLevels_iff {levels : List String} :
    validateFilterLevels levels = .ok () ↔ FilterLevels levels := by
  induction levels with
  | nil => exact iff_of_true rfl ⟨by simp, by simp⟩
  | cons level rest ih =>
    rw [filterLevels_cons, validateFilterLevels]
    split
    · rename_i he
      subst he
      by_cases hl : rest = []
      · subst hl
        exact iff_of_true rfl ⟨fun _ => ⟨rfl, rfl⟩, fun hp => absurd hp (by decide), ih.mp rfl⟩
      · rw [if_neg hl]
        exact iff_of_false (by simp) fun hf => hl (hf.1 (by decide)).2
    · rename_i hne
      simp only [contains_eq_mem, decide_eq_true_eq]
      split
      · rename_i hh
        exact iff_of_false (by simp) fun hf => hne (hf.1 hh).1
      · rename_i hh
        split
        · rename_i hp
          exact iff_of_false (by simp) fun hf => hp.2 (hf.2.1 hp.1)
        · rename_i hp
          rw [ih]
          exact ⟨fun hr => ⟨fun hm => absurd hm hh, fun hm => not_not.mp fun he => hp ⟨hm, he⟩, hr⟩,
            fun hf => hf.2.2⟩

theorem ordinaryFilter_iff {filter : String} (hn : filter ≠ "") :
    OrdinaryFilter filter ↔ validateFilterLevels (splitTopicLevels filter) = .ok () := by
  rw [validateFilterLevels_iff, splitTopicLevels_of_ne hn]
  exact ⟨OrdinaryFilter.levels, fun hl => ⟨hn, hl⟩⟩

theorem ne_empty_of_validateTopicFilterSyntax {filter : String}
    (hv : validateTopicFilterSyntax filter = .ok ()) : filter ≠ "" := by
  rintro rfl
  rw [validateTopicFilterSyntax, if_pos rfl] at hv
  cases hv

theorem toList_shared (group inner : String) : ("$share/" ++ group ++ "/" ++ inner).toList =
    "$share".toList ++ '/' :: (group.toList ++ '/' :: inner.toList) := by
  simp [String.toList_append]

theorem parseShareTopic_of_text {filter group inner : String} (hu : '/' ∉ group.toList)
    (ht : filter.toList = "$share".toList ++ '/' :: (group.toList ++ '/' :: inner.toList)) :
    parseShareTopic filter = (group, inner) := by
  have hd : filter.toList.drop "$share/".toList.length = group.toList ++ '/' :: inner.toList := by
    rw [ht]
    rfl
  have hw : ∀ char ∈ group.toList, decide (char ≠ '/') = true := by
    intro char hm
    exact decide_eq_true fun he => hu (he ▸ hm)
  have hc : (group.toList ++ '/' :: inner.toList).contains '/' = true := by simp
  rw [parseShareTopic, if_pos (isShareTopic_iff.mpr ⟨_, ht⟩), hd]
  dsimp only
  rw [if_pos hc, takeWhile_append_of_pos hw, dropWhile_append_of_pos hw]
  simp

theorem validShared_iff {filter group inner : String} : ValidShared filter group inner ↔
    filter = "$share/" ++ group ++ "/" ++ inner ∧ group ≠ "" ∧
      (∀ char ∈ ['/', '+', '#'], char ∉ group.toList) ∧ OrdinaryFilter inner := by
  have hw : (group.toList.any fun char => char = '+' || char = '#') = false ↔
      '+' ∉ group.toList ∧ '#' ∉ group.toList := by
    simp only [any_eq_false, Bool.or_eq_true, decide_eq_true_eq, not_or]
    exact ⟨fun ha => ⟨fun hm => (ha _ hm).1 rfl, fun hm => (ha _ hm).2 rfl⟩,
      fun hn char hm => ⟨fun he => hn.1 (he ▸ hm), fun he => hn.2 (he ▸ hm)⟩⟩
  simp only [forall_mem_cons, not_mem_nil, false_imp_iff, implies_true, and_true]
  constructor
  · intro hv
    exact ⟨String.toList_inj.mp (hv.text.trans (toList_shared group inner).symm), hv.groupNamed,
      ⟨hv.uncut, hw.mp hv.plain⟩, (ordinaryFilter_iff hv.innerNamed).mpr hv.levels⟩
  · rintro ⟨rfl, hn, ⟨hu, hp⟩, ho⟩
    exact ⟨toList_shared group inner, hu, hn, ho.named, hw.mpr hp,
      (ordinaryFilter_iff ho.named).mp ho⟩

theorem validateTopicFilterSyntax_of_valid {filter group inner : String}
    (hv : ValidShared filter group inner) : validateTopicFilterSyntax filter = .ok () := by
  have hs : startsWith filter "$share/" = true := isShareTopic_iff.mpr ⟨_, hv.text⟩
  rw [validateTopicFilterSyntax, if_neg (ne_empty_of_isShareTopic hs), if_pos hs,
    parseShareTopic_of_text hv.uncut hv.text]
  dsimp only
  rw [if_neg (not_or.mpr ⟨hv.groupNamed, hv.innerNamed⟩), if_neg (by simp [hv.plain])]
  exact hv.levels

theorem validateTopicFilterSyntax_iff {filter : String} :
    validateTopicFilterSyntax filter = .ok () ↔ TopicFilter filter := by
  constructor
  · intro hv
    by_cases hs : isSharedSubscription filter = true
    · obtain ⟨ht, hn, hp, ho⟩ := validShared_iff.mp (validShared_of_grammar hs hv)
      exact .shared _ _ ht hn hp ho
    · have hn := ne_empty_of_validateTopicFilterSyntax hv
      have hs : startsWith filter "$share/" = false := by simpa [isSharedSubscription] using hs
      rw [validateTopicFilterSyntax, if_neg hn, hs] at hv
      exact .ordinary hs ((ordinaryFilter_iff hn).mpr hv)
  · rintro (⟨hs, ho⟩ | ⟨group, inner, ht, hn, hp, ho⟩)
    · rw [validateTopicFilterSyntax, if_neg ho.named, hs]
      exact (ordinaryFilter_iff ho.named).mp ho
    · exact validateTopicFilterSyntax_of_valid (validShared_iff.mpr ⟨ht, hn, hp, ho⟩)

/-! ## The center -/

theorem validateLevels_of_validateFilterLevels {levels : List String}
    (hv : validateFilterLevels levels = .ok ()) : validateLevels levels = .ok () := by
  induction levels with
  | nil => rfl
  | cons level rest ih =>
    rw [validateFilterLevels] at hv
    rw [validateLevels]
    split at hv
    · rename_i hash
      rw [if_pos hash]
      split at hv
      · rename_i last
        rw [if_pos last]
      · cases hv
    · rename_i notHash
      rw [if_neg notHash]
      split at hv
      · cases hv
      · rename_i noHash
        rw [if_neg noHash]
        split at hv
        · cases hv
        · rename_i noPlus
          rw [if_neg fun hb => noPlus ⟨hb.2, hb.1⟩]
          exact ih hv

theorem validateLevels_cons_of_plain {level : String} {rest : List String}
    (hh : '#' ∉ level.toList) (hp : '+' ∉ level.toList) :
    validateLevels (level :: rest) = validateLevels rest := by
  have noHash : level ≠ "#" := by
    rintro rfl
    exact hh (by decide)
  rw [validateLevels, if_neg noHash, if_neg (by simpa using hh),
    if_neg fun hb => hp (by simpa using hb.2)]

theorem validateTopicFilter_of_syntax {filter : String}
    (ha : validateTopicFilterSyntax filter = .ok ()) : validateTopicFilter filter = .ok () := by
  have hn := ne_empty_of_validateTopicFilterSyntax ha
  rw [validateTopicFilter, if_neg hn]
  by_cases hs : isSharedSubscription filter = true
  · obtain ⟨ht, hu, -, named, hp, hl⟩ := validShared_of_grammar hs ha
    have split : splitTopicLevels filter = "$share" :: (parseShareTopic filter).1 ::
        splitTopicLevels (parseShareTopic filter).2 := by
      rw [splitTopicLevels_of_ne hn, ht, levelsOf_append_cons (by decide),
        levelsOf_append_cons hu, splitTopicLevels_of_ne named]
      simp
    have hf : '#' ∉ (parseShareTopic filter).1.toList ∧
        '+' ∉ (parseShareTopic filter).1.toList := by
      simp only [any_eq_false, Bool.or_eq_true, decide_eq_true_eq, not_or] at hp
      exact ⟨fun hm => (hp _ hm).2 rfl, fun hm => (hp _ hm).1 rfl⟩
    rw [split, validateLevels_cons_of_plain (by decide) (by decide),
      validateLevels_cons_of_plain hf.1 hf.2]
    exact validateLevels_of_validateFilterLevels hl
  · have plain : startsWith filter "$share/" = false := by simpa [isSharedSubscription] using hs
    rw [validateTopicFilterSyntax, if_neg hn, plain] at ha
    exact validateLevels_of_validateFilterLevels ha

theorem center_parse_of_valid {filter group inner : String} (hv : ValidShared filter group inner) :
    Subscription.parseSharedSubscription filter = some (group, inner) := by
  obtain ⟨ht, hn, hp, ho⟩ := validShared_iff.mp hv
  exact parseSharedSubscription_eq_some_iff.mpr ⟨ht, hn, hp, ho.named⟩

/-- The precheck decides the grammar, the center accepts what it accepts, and the three parsers
cut a shared filter into the same parts. -/
theorem filter_grammar_agrees (filter : String) :
    (validateTopicFilterSyntax filter = .ok () ↔ TopicFilter filter) ∧
      (validateTopicFilterSyntax filter = .ok () → validateTopicFilter filter = .ok ()) ∧
      (validateTopicFilterSyntax filter = .ok () → startsWith filter "$share/" = true →
        ∃ group inner, parseShareTopic filter = (group, inner) ∧
          parseSharedSubscription filter = .ok (group, inner) ∧
          Subscription.parseSharedSubscription filter = some (group, inner) ∧
          filter = "$share/" ++ group ++ "/" ++ inner) := by
  refine ⟨validateTopicFilterSyntax_iff, validateTopicFilter_of_syntax, fun hv hs => ?_⟩
  have hg := validShared_of_grammar hs hv
  exact ⟨_, _, rfl, parseSharedSubscription_of_valid hg, center_parse_of_valid hg,
    (validShared_iff.mp hg).1⟩

end SkyTree.Delivery.Router
