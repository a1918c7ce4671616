import SkyTree.Subscription.TopicFilter

/-!
# Matching and covering in access rules

A rule names topics by a filter. A publication is checked by matching its topic,
a subscription by asking whether the filter of the rule covers the requested one.
Covering is decided level by level; here it is compared with its meaning, that
every topic the request matches is matched by the rule.
-/

namespace SkyTree.Acl

open Subscription List

def matchLevels : List String → List String → Bool
  | [], names => names.isEmpty
  | level :: rest, names =>
    if level = "#" then true
    else
      match names with
      | [] => false
      | name :: names => (level = "+" || level = name) && matchLevels rest names

def matchTopic (filter topic : String) : Bool :=
  if filter = "" ∨ topic = "" then false
  else if hasWildcard topic then false
  else matchLevels (splitTopicLevels filter) (splitTopicLevels topic)

def supersetLevels : List String → List String → Bool
  | [], request => request.isEmpty
  | r :: rule, request =>
    if r = "#" then true
    else
      match request with
      | [] => false
      | q :: request =>
        if q = "#" then false
        else if q = "+" then r = "+" && supersetLevels rule request
        else (r = "+" || r = q) && supersetLevels rule request

def filterSuperset (ruleFilter reqFilter : String) : Bool :=
  if ruleFilter = "" ∨ reqFilter = "" then false
  else if ruleFilter = "#" then true
  else if reqFilter = "#" then ruleFilter = "#" || ruleFilter = "+/#"
  else supersetLevels (splitTopicLevels ruleFilter) (splitTopicLevels reqFilter)

/-! ## Topics as lists of levels -/

def Plain (level : String) : Prop :=
  '/' ∉ level.toList ∧ '+' ∉ level.toList ∧ '#' ∉ level.toList

instance (level : String) : Decidable (Plain level) :=
  inferInstanceAs (Decidable (_ ∧ _ ∧ _))

/-- The levels of a topic; one empty level belongs to no topic. -/
structure TopicLevels (names : List String) : Prop where
  filled : names ≠ []
  named : names ≠ [""]
  plain : ∀ name ∈ names, Plain name

variable {level : String}

theorem not_mem_of_mem_splitTopicLevels {topic : String} (hm : level ∈ splitTopicLevels topic) :
    '/' ∉ level.toList := by
  by_cases hn : topic = ""
  · simp [hn] at hm
  · rw [splitTopicLevels_of_ne hn, levelsOf, mem_map] at hm
    obtain ⟨part, hi, rfl⟩ := hm
    rw [String.toList_ofList]
    exact not_mem_of_mem_splitOn hi

theorem topicLevels_of_topic {topic : String} (hn : topic ≠ "")
    (hc : hasWildcard topic = false) : TopicLevels (splitTopicLevels topic) := by
  simp only [hasWildcard, Bool.or_eq_false_iff, contains_eq_mem, decide_eq_false_iff_not] at hc
  refine ⟨by simpa using hn, fun hs => ?_, fun name hm => ?_⟩
  · have he : levelsOf topic.toList = levelsOf [] := (splitTopicLevels_of_ne hn).symm.trans hs
    exact hn (String.toList_eq_nil_iff.mp (levelsOf_injective he))
  · refine ⟨not_mem_of_mem_splitTopicLevels hm, fun hp => ?_, fun hh => ?_⟩
    · exact hc.1 ((mem_level_iff (by decide) topic).mp ⟨name, hm, hp⟩)
    · exact hc.2 ((mem_level_iff (by decide) topic).mp ⟨name, hm, hh⟩)

variable {names : List String}

theorem TopicLevels.exists_topic (lvs : TopicLevels names) :
    ∃ topic, topic ≠ "" ∧ hasWildcard topic = false ∧ splitTopicLevels topic = names := by
  obtain ⟨hf, hn, hp⟩ := lvs
  let chars := List.intercalate ['/'] (names.map String.toList)
  have split : levelsOf chars = names := by
    have hu : ∀ part ∈ names.map String.toList, '/' ∉ part := by
      intro part hm
      obtain ⟨name, hi, rfl⟩ := mem_map.mp hm
      exact (hp name hi).1
    rw [levelsOf, splitOn_intercalate '/' hu (by simpa using hf)]
    simp
  have filled : String.ofList chars ≠ "" := by
    intro bare
    have noChars : chars = [] := by simpa using congrArg String.toList bare
    exact hn (split.symm.trans (by rw [noChars]; rfl))
  have he : splitTopicLevels (String.ofList chars) = names := by
    rw [splitTopicLevels_of_ne filled, String.toList_ofList, split]
  refine ⟨String.ofList chars, filled, ?_, he⟩
  simp only [hasWildcard, Bool.or_eq_false_iff, contains_eq_mem, decide_eq_false_iff_not]
  constructor
  · intro plus
    obtain ⟨name, hm, hi⟩ := (mem_level_iff (by decide) _).mpr plus
    exact (hp name (he ▸ hm)).2.1 hi
  · intro hh
    obtain ⟨name, hm, hi⟩ := (mem_level_iff (by decide) _).mpr hh
    exact (hp name (he ▸ hm)).2.2 hi

theorem forall_topics_iff {prop : List String → Prop} :
    (∀ topic, topic ≠ "" → hasWildcard topic = false → prop (splitTopicLevels topic)) ↔
      ∀ names, TopicLevels names → prop names := by
  constructor
  · intro hh names lvs
    obtain ⟨topic, hn, hc, rfl⟩ := lvs.exists_topic
    exact hh topic hn hc
  · intro hh topic hn hc
    exact hh _ (topicLevels_of_topic hn hc)

variable {filter : String}

theorem matchTopic_of_topic {topic : String} (hw : filter ≠ "") (hn : topic ≠ "")
    (hc : hasWildcard topic = false) :
    matchTopic filter topic = matchLevels (splitTopicLevels filter) (splitTopicLevels topic) := by
  simp [matchTopic, hw, hn, hc]

/-! ## Well-formed filters -/

/-- The levels of a filter that the broker's validation accepts. -/
inductive WellFormed : List String → Prop where
  | nil : WellFormed []
  | hash : WellFormed ["#"]
  | plus {rest : List String} (tail : WellFormed rest) : WellFormed ("+" :: rest)
  | literal {level : String} {rest : List String} (plain : Plain level) (tail : WellFormed rest) :
      WellFormed (level :: rest)

variable {lvs : List String}

theorem wellFormed_of_validateLevels (hu : ∀ level ∈ lvs, '/' ∉ level.toList)
    (hv : validateLevels lvs = .ok ()) :
    WellFormed lvs := by
  induction lvs with
  | nil => exact .nil
  | cons level rest ih =>
    have ht := ih fun o hm => hu o (.tail _ hm)
    simp only [validateLevels] at hv
    split_ifs at hv with hh hl mixed hp
    · subst hh hl
      exact .hash
    · by_cases hs : level = "+"
      · subst hs
        exact .plus (ht hv)
      · refine .literal ⟨hu level (.head _), ?_, ?_⟩ (ht hv)
        · simpa [hs] using hp
        · simpa using mixed

theorem wellFormed_of_valid (hv : validateTopicFilter filter = .ok ()) :
    filter ≠ "" ∧ WellFormed (splitTopicLevels filter) := by
  unfold validateTopicFilter at hv
  split at hv
  next => cases hv
  next written =>
    exact ⟨written, wellFormed_of_validateLevels
      (fun _ hm => not_mem_of_mem_splitTopicLevels hm) hv⟩

/-! ## Covering, level by level -/

theorem Plain.ne_plus (hp : Plain level) : level ≠ "+" := by
  rintro rfl
  exact hp.2.1 (by simp)

theorem Plain.ne_hash (hp : Plain level) : level ≠ "#" := by
  rintro rfl
  exact hp.2.2 (by simp)

theorem plain_a : Plain "a" := by decide

theorem WellFormed.exists_match (wf : WellFormed lvs) :
    ∃ names, (∀ name ∈ names, Plain name) ∧ matchLevels lvs names = true := by
  induction wf with
  | nil => exact ⟨[], by simp, rfl⟩
  | hash => exact ⟨[], by simp, by simp [matchLevels]⟩
  | plus ht ih =>
    obtain ⟨names, hp, hm⟩ := ih
    refine ⟨"a" :: names, ?_, by simp [matchLevels, hm]⟩
    exact forall_mem_cons.mpr ⟨plain_a, hp⟩
  | literal word ht ih =>
    obtain ⟨names, hp, hm⟩ := ih
    refine ⟨_ :: names, forall_mem_cons.mpr ⟨word, hp⟩, ?_⟩
    simp [matchLevels, hm, word.ne_hash]

theorem exists_other_level (level : String) : ∃ name, Plain name ∧ name ≠ "" ∧ level ≠ name := by
  by_cases ht : level = "a"
  · subst ht
    exact ⟨"b", by decide, by decide, by decide⟩
  · exact ⟨"a", by decide, by decide, ht⟩

def Covers (rule request : List String) : Prop :=
  ∀ names, (∀ name ∈ names, Plain name) → matchLevels request names = true →
    matchLevels rule names = true

def HeadCovers (r q : String) : Prop :=
  ∀ name, Plain name → q = "+" ∨ q = name → r = "+" ∨ r = name

variable {r : String}

theorem headCovers_plus_iff : HeadCovers r "+" ↔ r = "+" := by
  constructor
  · intro hc
    obtain ⟨name, hp, -, ho⟩ := exists_other_level r
    exact (hc name hp (.inl rfl)).resolve_right ho
  · rintro rfl _ _ _
    exact .inl rfl

theorem headCovers_literal_iff {q : String} (hp : Plain q) : HeadCovers r q ↔ r = "+" ∨ r = q := by
  constructor
  · intro hc
    exact hc q hp (.inr rfl)
  · rintro he name - (plus | rfl)
    · exact absurd plus hp.ne_plus
    · exact he

theorem matchLevels_cons_iff (notHash : level ≠ "#") {rest : List String} :
    matchLevels (level :: rest) names = true ↔
      ∃ name tail, names = name :: tail ∧ (level = "+" ∨ level = name) ∧
        matchLevels rest tail = true := by
  cases names with
  | nil | cons name tail => simp [matchLevels, notHash]

variable {rule req : List String}

theorem covers_cons_iff {q name : String} (ruled : r ≠ "#") (plain : q ≠ "#")
    (hp : Plain name) (hit : q = "+" ∨ q = name) (wf : WellFormed req) :
    Covers (r :: rule) (q :: req) ↔ HeadCovers r q ∧ Covers rule req := by
  constructor
  · intro hc
    have hb {first : String} {tail : List String} (plainFst : Plain first)
        (words : ∀ name ∈ tail, Plain name) (hit : q = "+" ∨ q = first)
        (hm : matchLevels req tail = true) :
        (r = "+" ∨ r = first) ∧ matchLevels rule tail = true := by
      have hw := hc (first :: tail) (forall_mem_cons.mpr ⟨plainFst, words⟩)
        ((matchLevels_cons_iff plain).mpr ⟨first, tail, rfl, hit, hm⟩)
      obtain ⟨_, _, ⟨⟩, hh, rest⟩ := (matchLevels_cons_iff ruled).mp hw
      exact ⟨hh, rest⟩
    constructor
    · intro first plainFst hitFst
      obtain ⟨tail, words, hm⟩ := wf.exists_match
      exact (hb plainFst words hitFst hm).1
    · intro tail words hm
      exact (hb hp words hit hm).2
  · rintro ⟨hh, tail⟩ names plainNames hm
    obtain ⟨first, rest, rfl, hitFst, fitRest⟩ := (matchLevels_cons_iff plain).mp hm
    obtain ⟨plainFst, plainRest⟩ := forall_mem_cons.mp plainNames
    exact (matchLevels_cons_iff ruled).mpr ⟨first, rest, rfl, hh first plainFst hitFst,
      tail rest plainRest fitRest⟩

theorem not_covers_of_matches_nil (ruled : r ≠ "#") (hm : matchLevels req [] = true) :
    ¬Covers (r :: rule) req := by
  intro hc
  have hw := hc [] (by simp) hm
  simp [matchLevels, ruled] at hw

theorem not_covers_nil {name : String} (hp : ∀ level ∈ name :: names, Plain level)
    (hm : matchLevels req (name :: names) = true) : ¬Covers [] req := by
  intro hc
  simpa [matchLevels] using hc _ hp hm

theorem supersetLevels_iff_covers (ruleWf : WellFormed rule) (hh : WellFormed req) :
    supersetLevels rule req = true ↔ Covers rule req := by
  induction ruleWf generalizing req with
  | nil =>
    cases hh with
    | nil => simp [supersetLevels, Covers]
    | hash =>
      have hs : ∀ level ∈ ["a"], Plain level := by decide
      simpa [supersetLevels] using not_covers_nil hs (by simp [matchLevels])
    | @plus rest tail =>
      obtain ⟨names, hp, hm⟩ := (WellFormed.plus tail).exists_match
      obtain ⟨first, names, rfl, -⟩ := (matchLevels_cons_iff (by decide)).mp hm
      simpa [supersetLevels] using not_covers_nil hp hm
    | literal word tail =>
      obtain ⟨names, hp, hm⟩ := (WellFormed.literal word tail).exists_match
      obtain ⟨first, names, rfl, -⟩ := (matchLevels_cons_iff word.ne_hash).mp hm
      simpa [supersetLevels] using not_covers_nil hp hm
  | hash => simp [supersetLevels, Covers, matchLevels]
  | @plus rule ruleTail ih =>
    cases hh with
    | nil => simpa [supersetLevels] using not_covers_of_matches_nil (by decide) rfl
    | hash =>
      simpa [supersetLevels] using not_covers_of_matches_nil (by decide) (by simp [matchLevels])
    | @plus req tail =>
      rw [covers_cons_iff (by decide) (by decide) plain_a (.inl rfl) tail,
        headCovers_plus_iff, ← ih tail]
      simp [supersetLevels]
    | @literal level req word tail =>
      rw [covers_cons_iff (by decide) word.ne_hash word (.inr rfl) tail,
        headCovers_literal_iff word, ← ih tail]
      simp [supersetLevels, word.ne_hash, word.ne_plus]
  | @literal r rule plainRule ruleTail ih =>
    have ruled := plainRule.ne_hash
    cases hh with
    | nil => simpa [supersetLevels, ruled] using not_covers_of_matches_nil ruled rfl
    | hash =>
      simpa [supersetLevels, ruled] using not_covers_of_matches_nil ruled (by simp [matchLevels])
    | @plus req tail =>
      rw [covers_cons_iff ruled (by decide) plain_a (.inl rfl) tail, headCovers_plus_iff, ← ih tail]
      simp [supersetLevels, ruled]
    | @literal level req word tail =>
      rw [covers_cons_iff ruled word.ne_hash word (.inr rfl) tail,
        headCovers_literal_iff word, ← ih tail]
      simp [supersetLevels, ruled, word.ne_hash, word.ne_plus]

/-! ## Covering of topics -/

def TopicCovers (rule request : List String) : Prop :=
  ∀ names, TopicLevels names → matchLevels request names = true → matchLevels rule names = true

theorem covers_hash_iff (wf : WellFormed rule) : Covers rule ["#"] ↔ rule = ["#"] := by
  rw [← supersetLevels_iff_covers wf .hash]
  cases wf with
  | nil | hash | plus ht => simp [supersetLevels]
  | literal hp ht => simp [supersetLevels, hp.ne_hash]

theorem forall_nonempty_iff (wf : WellFormed rule) :
    (∀ name names, name ≠ "" → (∀ level ∈ name :: names, Plain level) →
      matchLevels rule (name :: names) = true) ↔ rule = ["#"] ∨ rule = ["+", "#"] := by
  constructor
  · intro hm
    cases wf with
    | nil => exact absurd (hm "a" [] (by decide) (by decide)) (by decide)
    | hash => exact .inl rfl
    | @plus rest tail =>
      right
      congr 1
      refine (covers_hash_iff tail).mp fun names hp _ => ?_
      have hw := hm "a" names (by decide) (forall_mem_cons.mpr ⟨plain_a, hp⟩)
      simpa [matchLevels] using hw
    | @literal level rest word tail =>
      obtain ⟨name, hp, hn, ho⟩ := exists_other_level level
      have hw := hm name [] hn (by simpa using hp)
      simp [matchLevels, word.ne_hash, word.ne_plus, ho] at hw
  · rintro (rfl | rfl) name names - - <;> simp [matchLevels]

theorem WellFormed.tail {level : String} {rest : List String}
    (wf : WellFormed (level :: rest)) : WellFormed rest := by
  cases wf with
  | hash => exact .nil
  | plus ht | literal _ ht => exact ht

theorem WellFormed.head_ne_hash {rest : List String} (wf : WellFormed (level :: rest))
    (hl : level :: rest ≠ ["#"]) : level ≠ "#" := by
  cases wf with
  | hash => exact absurd rfl hl
  | plus ht => decide
  | literal hp ht => exact hp.ne_hash

theorem WellFormed.eq_of_matches_nil (wf : WellFormed lvs)
    (hm : matchLevels lvs [] = true) : lvs = [] ∨ lvs = ["#"] := by
  cases wf with
  | nil => exact .inl rfl
  | hash => exact .inr rfl
  | plus ht => simp [matchLevels] at hm
  | literal hp ht => simp [matchLevels, hp.ne_hash] at hm

/-- `/#` matches nothing above the second level, since no topic is empty. -/
def BelowEmptyRoot (rule request : List String) : Prop :=
  request = ["", "#"] ∧ (rule = ["", "+", "#"] ∨ rule = ["+", "+", "#"])

theorem topicLevels_or_eq (hf : names ≠ []) (hp : ∀ name ∈ names, Plain name) :
    TopicLevels names ∨ names = [""] := by
  by_cases hs : names = [""]
  · exact .inr hs
  · exact .inl ⟨hf, hs, hp⟩

theorem belowEmptyRoot_topicCovers (hb : BelowEmptyRoot rule req) : TopicCovers rule req := by
  obtain ⟨rfl, he⟩ := hb
  intro names lvs hm
  obtain ⟨name, tail, rfl, hit, -⟩ := (matchLevels_cons_iff (by decide)).mp hm
  obtain rfl : "" = name := hit.resolve_left (by decide)
  cases tail with
  | nil => exact absurd rfl lvs.named
  | cons second tail => rcases he with rfl | rfl <;> simp [matchLevels]

theorem tail_of_topicCovers_emptyRoot (ruled : r ≠ "#") (hc : TopicCovers (r :: rule) ["", "#"]) :
    (r = "+" ∨ r = "") ∧ ∀ name names, name ≠ "" → (∀ level ∈ name :: names, Plain level) →
      matchLevels rule (name :: names) = true := by
  have split {name : String} {names : List String} (hp : ∀ level ∈ name :: names, Plain level) :
      (r = "+" ∨ r = "") ∧ matchLevels rule (name :: names) = true := by
    have hw := hc ("" :: name :: names) ⟨by simp, by simp,
      forall_mem_cons.mpr ⟨by decide, hp⟩⟩ (by simp [matchLevels])
    obtain ⟨_, _, ⟨⟩, hh, hr⟩ := (matchLevels_cons_iff ruled).mp hw
    exact ⟨hh, hr⟩
  refine ⟨(split (forall_mem_singleton.mpr plain_a)).1, fun name names _ hp => ?_⟩
  exact (split hp).2

/-- Covering all topics is covering all lists of levels, but for the single empty level. -/
theorem topicCovers_cons_iff {q : String} (ruled : r ≠ "#") (plain : q ≠ "#")
    (hw : q :: req ≠ [""]) (ruleWf : WellFormed rule)
    (reqWf : WellFormed (q :: req)) :
    TopicCovers (r :: rule) (q :: req) ↔
      Covers (r :: rule) (q :: req) ∨ BelowEmptyRoot (r :: rule) (q :: req) := by
  constructor
  · intro hc
    by_cases root : q :: req = ["", "#"]
    · -- the rest of the rule is `#`, or `+/#` and only the topics are covered
      rw [root] at hc ⊢
      obtain ⟨hh, hr⟩ := tail_of_topicCovers_emptyRoot ruled hc
      rcases (forall_nonempty_iff ruleWf).mp hr with rfl | rfl
      · left
        intro names hp hm
        obtain ⟨name, tail, rfl, hit, -⟩ := (matchLevels_cons_iff (by decide)).mp hm
        refine (matchLevels_cons_iff ruled).mpr ⟨name, tail, rfl, ?_, by simp [matchLevels]⟩
        rwa [← hit.resolve_left (by decide)]
      · right
        rcases hh with rfl | rfl
        · exact ⟨rfl, .inr rfl⟩
        · exact ⟨rfl, .inl rfl⟩
    · left
      intro names hp hm
      obtain ⟨name, tail, rfl, hit, fitTail⟩ := (matchLevels_cons_iff plain).mp hm
      rcases topicLevels_or_eq (cons_ne_nil name tail) hp with lvs | hs
      · exact hc _ lvs hm
      · -- only `+` can match the single empty level, and then the rule starts with `+`
        obtain ⟨rfl, rfl⟩ : name = "" ∧ tail = [] := by simpa using hs
        have plus : q = "+" := by
          refine hit.resolve_right fun he => ?_
          subst he
          rcases reqWf.tail.eq_of_matches_nil fitTail with rfl | rfl
          · exact hw rfl
          · exact root rfl
        subst plus
        obtain ⟨o, plainOther, hn, hne⟩ := exists_other_level r
        have whole := hc [o] ⟨by simp, by simpa using hn, by simpa using plainOther⟩
          ((matchLevels_cons_iff plain).mpr ⟨o, [], rfl, .inl rfl, fitTail⟩)
        obtain ⟨_, _, ⟨⟩, hh, hr⟩ := (matchLevels_cons_iff ruled).mp whole
        exact (matchLevels_cons_iff ruled).mpr ⟨"", [], rfl, .inl (hh.resolve_right hne), hr⟩
  · rintro (hc | hb)
    · exact fun names lvs hm => hc names lvs.plain hm
    · exact belowEmptyRoot_topicCovers hb

/-! ## Filters -/

/-- The pairs on which the level-wise check is stricter than covering. -/
def StrictPair (ruleFilter reqFilter : String) : Prop :=
  reqFilter = "/#" ∧ (ruleFilter = "/+/#" ∨ ruleFilter = "+/+/#")

theorem belowEmptyRoot_iff {ruleFilter reqFilter : String} :
    BelowEmptyRoot (splitTopicLevels ruleFilter) (splitTopicLevels reqFilter) ↔
      StrictPair ruleFilter reqFilter := by
  have req : splitTopicLevels reqFilter = ["", "#"] ↔ reqFilter = "/#" :=
    splitTopicLevels_injective.eq_iff' (by decide)
  have he : splitTopicLevels ruleFilter = ["", "+", "#"] ↔ ruleFilter = "/+/#" :=
    splitTopicLevels_injective.eq_iff' (by decide)
  have hp : splitTopicLevels ruleFilter = ["+", "+", "#"] ↔ ruleFilter = "+/+/#" :=
    splitTopicLevels_injective.eq_iff' (by decide)
  rw [BelowEmptyRoot, StrictPair, req, he, hp]

theorem not_covers_belowEmptyRoot (hb : BelowEmptyRoot rule req) : ¬Covers rule req := by
  obtain ⟨rfl, rfl | rfl⟩ := hb
  · intro hc
    exact absurd (hc [""] (by decide) (by decide)) (by decide)
  · intro hc
    exact absurd (hc [""] (by decide) (by decide)) (by decide)

theorem splitTopicLevels_ne_emptyLevel (filter : String) : splitTopicLevels filter ≠ [""] := by
  intro hs
  by_cases hw : filter = ""
  · simp [hw] at hs
  · have he : levelsOf filter.toList = levelsOf [] := (splitTopicLevels_of_ne hw).symm.trans hs
    exact hw (String.toList_eq_nil_iff.mp (levelsOf_injective he))

theorem splitTopicLevels_eq_hash_iff : splitTopicLevels filter = ["#"] ↔ filter = "#" :=
  splitTopicLevels_injective.eq_iff' (by decide)

theorem topicCovers_hash_iff (wf : WellFormed rule) :
    TopicCovers rule ["#"] ↔ rule = ["#"] ∨ rule = ["+", "#"] := by
  rw [← forall_nonempty_iff wf]
  constructor
  · intro hc name names hn hp
    exact hc _ ⟨by simp, by simp [hn], hp⟩ (by simp [matchLevels])
  · intro hm names lvs _
    rcases (forall_nonempty_iff wf).mp hm with rfl | rfl
    · simp [matchLevels]
    · obtain ⟨name, tail, rfl⟩ := exists_cons_of_ne_nil lvs.filled
      simp [matchLevels]

/-- The check on filters decides covering of topics, except on the strict pairs. -/
theorem filterSuperset_iff_topicCovers {ruleFilter reqFilter : String}
    (valid : validateTopicFilter ruleFilter = .ok ())
    (reqOk : validateTopicFilter reqFilter = .ok ()) :
    filterSuperset ruleFilter reqFilter = true ↔
      TopicCovers (splitTopicLevels ruleFilter) (splitTopicLevels reqFilter) ∧
        ¬StrictPair ruleFilter reqFilter := by
  obtain ⟨ruled, ruleWf⟩ := wellFormed_of_valid valid
  obtain ⟨putReq, hh⟩ := wellFormed_of_valid reqOk
  rw [filterSuperset, if_neg (not_or.mpr ⟨ruled, putReq⟩)]
  by_cases all' : ruleFilter = "#"
  · subst all'
    have all : TopicCovers ["#"] (splitTopicLevels reqFilter) := by
      intro names _ _
      simp [matchLevels]
    simpa [StrictPair, splitTopicLevels_eq_hash_iff.mpr rfl] using all
  · rw [if_neg all']
    by_cases reqAll : reqFilter = "#"
    · subst reqAll
      rw [splitTopicLevels_eq_hash_iff.mpr rfl, topicCovers_hash_iff ruleWf,
        splitTopicLevels_eq_hash_iff,
        splitTopicLevels_injective.eq_iff' (show splitTopicLevels "+/#" = ["+", "#"] by decide)]
      simp [StrictPair]
    · rw [if_neg reqAll, ← belowEmptyRoot_iff, supersetLevels_iff_covers ruleWf hh]
      have hashed : splitTopicLevels ruleFilter ≠ ["#"] := splitTopicLevels_eq_hash_iff.not.mpr all'
      have reqHash : splitTopicLevels reqFilter ≠ ["#"] :=
        splitTopicLevels_eq_hash_iff.not.mpr reqAll
      have hw := splitTopicLevels_ne_emptyLevel reqFilter
      have cons' : splitTopicLevels ruleFilter ≠ [] := by simpa using ruled
      have reqCons : splitTopicLevels reqFilter ≠ [] := by simpa using putReq
      generalize splitTopicLevels ruleFilter = rule at *
      generalize splitTopicLevels reqFilter = req at *
      obtain ⟨r, rule, rfl⟩ := exists_cons_of_ne_nil cons'
      obtain ⟨q, req, rfl⟩ := exists_cons_of_ne_nil reqCons
      rw [topicCovers_cons_iff (ruleWf.head_ne_hash hashed) (hh.head_ne_hash reqHash)
        hw ruleWf.tail hh]
      constructor
      · intro hc
        exact ⟨.inl hc, fun hb => not_covers_belowEmptyRoot hb hc⟩
      · rintro ⟨hc | hb, hs⟩
        · exact hc
        · exact absurd hb hs

/-- For well-formed filters the check is true exactly when every topic of the request is a topic of
the rule and the pair is not a strict one. -/
theorem filterSuperset_iff {ruleFilter reqFilter : String}
    (ruleValid : validateTopicFilter ruleFilter = .ok ())
    (reqValid : validateTopicFilter reqFilter = .ok ()) :
    filterSuperset ruleFilter reqFilter = true ↔
      (∀ topic, topic ≠ "" → hasWildcard topic = false → matchTopic reqFilter topic = true →
        matchTopic ruleFilter topic = true) ∧ ¬StrictPair ruleFilter reqFilter := by
  have hh := (wellFormed_of_valid ruleValid).1
  have putReq := (wellFormed_of_valid reqValid).1
  rw [filterSuperset_iff_topicCovers ruleValid reqValid, TopicCovers, ← forall_topics_iff]
  refine and_congr_left fun _ => forall_congr' fun topic => forall_congr' fun hn =>
    forall_congr' fun hc => ?_
  rw [matchTopic_of_topic hh hn hc, matchTopic_of_topic putReq hn hc]

theorem filterSuperset_iff_sensors : filterSuperset "sensors/#" "sensors/+/temperature" = true ∧
      ∀ topic, topic ≠ "" → hasWildcard topic = false →
        matchTopic "sensors/+/temperature" topic = true → matchTopic "sensors/#" topic = true := by
  have hd : filterSuperset "sensors/#" "sensors/+/temperature" = true := by decide
  have hc := (filterSuperset_iff (by decide) (by decide)).mp hd
  exact ⟨hd, hc.1⟩

/-- No topic is the single empty level, so `/+/#` covers `/#`; the check says it does not. -/
theorem filterSuperset_misses_covering :
    filterSuperset "/+/#" "/#" = false ∧ validateTopicFilter "/+/#" = .ok () ∧
      validateTopicFilter "/#" = .ok () ∧
      ∀ topic, topic ≠ "" → hasWildcard topic = false → matchTopic "/#" topic = true →
        matchTopic "/+/#" topic = true := by
  have hb : BelowEmptyRoot (splitTopicLevels "/+/#") (splitTopicLevels "/#") :=
    belowEmptyRoot_iff.mpr ⟨rfl, .inl rfl⟩
  refine ⟨by decide, by decide, by decide, fun topic hn hc => ?_⟩
  rw [matchTopic_of_topic (by decide) hn hc, matchTopic_of_topic (by decide) hn hc]
  exact belowEmptyRoot_topicCovers hb _ (topicLevels_of_topic hn hc)

theorem matchLevels_delivered (hm : Subscription.matchLevels lvs names = true) :
    matchLevels lvs names = true := by
  induction lvs generalizing names with
  | nil => exact hm
  | cons level rest ih => cases names <;> grind [Subscription.matchLevels, matchLevels]

theorem matchTopic_of_delivered {rule req topic : String}
    (ruleValid : validateTopicFilter rule = .ok ()) (reqValid : validateTopicFilter req = .ok ())
    (covers : filterSuperset rule req = true) (plain : hasWildcard topic = false)
    (delivered : matchTopicFilter req topic = true) : matchTopic rule topic = true := by
  obtain ⟨-, hn, hd⟩ := matchTopicFilter_iff.mp delivered
  rw [matchTopic_of_topic (wellFormed_of_valid ruleValid).1 hn plain]
  exact ((filterSuperset_iff_topicCovers ruleValid reqValid).mp covers).1 _
    (topicLevels_of_topic hn plain) (matchLevels_delivered (Bool.and_eq_true_iff.mp hd).2)

theorem matchTopic_of_delivered_child : matchTopic "s/#" "s/a" = true := by
  apply @matchTopic_of_delivered _ "s/+" <;> decide

end SkyTree.Acl
