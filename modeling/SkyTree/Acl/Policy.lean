import SkyTree.Acl.Match

/-!
# Decisions of a ruleset

Deny rules are looked at first, then allow rules, then the default. A subscription
is compared filter with filter: a deny rule stops it only when it covers the whole
requested filter. A request that merely overlaps a denied filter passes, and then
gives access to the topics in the overlap.
-/

namespace SkyTree.Acl

open Subscription List

inductive Action where
  | publish
  | subscribe
  deriving DecidableEq, Repr

structure Identity where
  username : String := ""
  clientID : ClientID := ""
  deriving DecidableEq, Repr

structure RuleEntry where
  pub : List String := []
  sub : List String := []
  deriving DecidableEq, Repr

structure Rule where
  identity : Identity
  allow : RuleEntry := {}
  deny : RuleEntry := {}
  deriving DecidableEq, Repr

structure Ruleset where
  defaultDeny : Bool := false
  rules : List Rule := []
  deriving DecidableEq, Repr

def identityMatch (id : Identity) (username : String) (clientID : ClientID) : Bool :=
  if id.username ≠ "" ∧ id.username ≠ username then false
  else if id.clientID ≠ "" ∧ id.clientID ≠ clientID then false
  else id.username ≠ "" || id.clientID ≠ ""

def anyMatchTopic (filters : List String) (topic : String) : Bool :=
  filters.any fun filter => matchTopic filter topic

def anySuperset (ruleFilters : List String) (reqFilter : String) : Bool :=
  ruleFilters.any fun ruleFilter => filterSuperset ruleFilter reqFilter

def RuleEntry.applies (entry : RuleEntry) (action : Action) (subject : String) : Bool :=
  match action with
  | .publish => anyMatchTopic entry.pub subject
  | .subscribe => anySuperset entry.sub subject

namespace Ruleset

variable (ruleset : Ruleset) (username : String) (clientID : ClientID)

def applicable : List Rule :=
  ruleset.rules.filter fun rule => identityMatch rule.identity username clientID

def eval (action : Action) (subject : String) : Bool :=
  if (ruleset.applicable username clientID).any fun rule => rule.deny.applies action subject then
    false
  else if (ruleset.applicable username clientID).any
      fun rule => rule.allow.applies action subject then
    true
  else !ruleset.defaultDeny

def allowPublish (topic : String) : Except String Bool :=
  if topic = "" then .error "empty topic" else .ok (ruleset.eval username clientID .publish topic)

def allowSubscribe (topicFilter : String) : Except String Bool :=
  if topicFilter = "" then .error "empty topic filter"
  else .ok (ruleset.eval username clientID .subscribe topicFilter)

end Ruleset

/-- A shared subscription is authorized by the filter behind its group. -/
def authorizedFilter (topicFilter : String) : String :=
  if (parseShareTopic topicFilter).2 = "" then topicFilter else (parseShareTopic topicFilter).2

/-- The hook on SUBSCRIBE refuses the packet at the first filter that is not allowed. -/
def onSubscribe (ruleset : Ruleset) (username : String) (clientID : ClientID) :
    List String → Except String Unit
  | [] => .ok ()
  | topicFilter :: rest =>
    if topicFilter = "" then onSubscribe ruleset username clientID rest
    else
      match ruleset.allowSubscribe username clientID (authorizedFilter topicFilter) with
      | .ok true => onSubscribe ruleset username clientID rest
      | _ => .error s!"acl denied subscribe: client={clientID} topic_filter={topicFilter}"

def onReceivedPublish (ruleset : Ruleset) (username : String) (clientID : ClientID)
    (topic : String) : Except String Unit :=
  match ruleset.allowPublish username clientID topic with
  | .ok true => .ok ()
  | _ => .error s!"acl denied publish: client={clientID} topic={topic}"

/-! ## Overlapping filters -/

/-- Some list of levels matches; behind `#` nothing is compared any more. -/
def satisfiable : List String → Bool
  | [] => true
  | level :: rest => level = "#" || ((level = "+" || decide (Plain level)) && satisfiable rest)

def levelsMeet (r q : String) : Bool :=
  if r = "+" then q = "+" || decide (Plain q)
  else if q = "+" then decide (Plain r)
  else r = q && decide (Plain r)

def overlapLevels : List String → List String → Bool
  | [], [] => true
  | [], q :: _ => q = "#"
  | r :: rule, request =>
    if r = "#" then satisfiable request
    else
      match request with
      | [] => false
      | q :: request =>
        if q = "#" then satisfiable (r :: rule) else levelsMeet r q && overlapLevels rule request

/-- The filters meet in the single empty level only, which no topic has. -/
def meetsInEmptyLevel : List String → List String → Bool
  | "" :: "#" :: _, ["+"] => true
  | _, _ => false

def filtersOverlap (first second : String) : Bool :=
  first ≠ "" && second ≠ "" && overlapLevels (splitTopicLevels first) (splitTopicLevels second) &&
    !meetsInEmptyLevel (splitTopicLevels first) (splitTopicLevels second) &&
    !meetsInEmptyLevel (splitTopicLevels second) (splitTopicLevels first)

def Meets (first second names : List String) : Prop :=
  (∀ name ∈ names, Plain name) ∧ matchLevels first names = true ∧ matchLevels second names = true

theorem exists_hit_iff {level : String} :
    (∃ name, Plain name ∧ (level = "+" ∨ level = name)) ↔ level = "+" ∨ Plain level := by
  constructor
  · rintro ⟨name, hp, plus | rfl⟩
    · exact .inl plus
    · exact .inr hp
  · rintro (plus | hp)
    · exact ⟨"a", plain_a, .inl plus⟩
    · exact ⟨level, hp, .inr rfl⟩

theorem levelsMeet_iff {r q : String} : levelsMeet r q = true ↔
      ∃ name, Plain name ∧ (r = "+" ∨ r = name) ∧ (q = "+" ∨ q = name) := by
  unfold levelsMeet
  split_ifs with plus' hh
  · simp only [plus', true_or, true_and, exists_hit_iff, Bool.or_eq_true, decide_eq_true_eq]
  · have hl : r = "+" ∨ Plain r ↔ Plain r := by simp [plus']
    simp only [hh, true_or, and_true, exists_hit_iff, hl, decide_eq_true_eq]
  · simp only [plus', hh, false_or, Bool.and_eq_true, decide_eq_true_eq]
    constructor
    · rintro ⟨rfl, hp⟩
      exact ⟨r, hp, rfl, rfl⟩
    · rintro ⟨name, hp, rfl, rfl⟩
      exact ⟨rfl, hp⟩

variable {lvs : List String}

theorem satisfiable_iff : satisfiable lvs = true ↔
      ∃ names, (∀ name ∈ names, Plain name) ∧ matchLevels lvs names = true := by
  induction lvs with
  | nil => exact ⟨fun _ => ⟨[], by simp, rfl⟩, fun _ => rfl⟩
  | cons level rest ih =>
    by_cases hh : level = "#"
    · subst hh
      exact ⟨fun _ => ⟨[], by simp, by simp [matchLevels]⟩, fun _ => by simp [satisfiable]⟩
    · simp only [satisfiable, hh, decide_false, Bool.false_or, Bool.and_eq_true,
        ih, Bool.or_eq_true, decide_eq_true_eq, ← exists_hit_iff]
      constructor
      · rintro ⟨⟨name, hp, hit⟩, names, plain, hm⟩
        exact ⟨name :: names, forall_mem_cons.mpr ⟨hp, plain⟩,
          (matchLevels_cons_iff hh).mpr ⟨name, names, rfl, hit, hm⟩⟩
      · rintro ⟨names, plain, hm⟩
        obtain ⟨name, tail, rfl, hit, fitTail⟩ := (matchLevels_cons_iff hh).mp hm
        obtain ⟨hp, words⟩ := forall_mem_cons.mp plain
        exact ⟨⟨name, hp, hit⟩, tail, words, fitTail⟩

variable {names : List String}

theorem meets_hash_iff {rest : List String} : Meets ("#" :: rest) lvs names ↔
      (∀ name ∈ names, Plain name) ∧ matchLevels lvs names = true := by
  simp [Meets, matchLevels]

variable {first snd : List String}

theorem Meets.symm (hm : Meets first snd names) : Meets snd first names := ⟨hm.1, hm.2.2, hm.2.1⟩

theorem exists_meets_cons_iff {r q : String} {rule req : List String} (ruled : r ≠ "#")
    (hh : q ≠ "#") :
    (∃ names, Meets (r :: rule) (q :: req) names) ↔
      levelsMeet r q = true ∧ ∃ names, Meets rule req names := by
  rw [levelsMeet_iff]
  constructor
  · rintro ⟨names, plain, first, snd⟩
    obtain ⟨name, tail, rfl, fit, fits⟩ := (matchLevels_cons_iff ruled).mp first
    obtain ⟨_, _, ⟨⟩, hitReq, fitReq⟩ := (matchLevels_cons_iff hh).mp snd
    obtain ⟨hp, words⟩ := forall_mem_cons.mp plain
    exact ⟨⟨name, hp, fit, hitReq⟩, tail, words, fits, fitReq⟩
  · rintro ⟨⟨name, hp, fit, hitReq⟩, tail, words, fits, fitReq⟩
    exact ⟨name :: tail, forall_mem_cons.mpr ⟨hp, words⟩,
      (matchLevels_cons_iff ruled).mpr ⟨name, tail, rfl, fit, fits⟩,
      (matchLevels_cons_iff hh).mpr ⟨name, tail, rfl, hitReq, fitReq⟩⟩

theorem overlapLevels_iff {rule req : List String} :
    overlapLevels rule req = true ↔ ∃ names, Meets rule req names := by
  induction rule generalizing req with
  | nil =>
    cases req with
    | nil => exact ⟨fun _ => ⟨[], by simp, rfl, rfl⟩, fun _ => rfl⟩
    | cons q req =>
      have onlyNil {names : List String} (hm : matchLevels [] names = true) : names = [] := by
        simpa [matchLevels] using hm
      constructor
      · intro hh
        exact ⟨[], by simp, rfl, by simpa [overlapLevels, matchLevels] using hh⟩
      · rintro ⟨names, -, first, snd⟩
        rw [onlyNil first] at snd
        simpa [overlapLevels, matchLevels] using snd
  | cons r rule ih =>
    by_cases hashed : r = "#"
    · subst hashed
      simp only [overlapLevels, if_true, satisfiable_iff, meets_hash_iff]
    · cases req with
      | nil =>
        have hn (names : List String) : ¬Meets (r :: rule) [] names := by
          rintro ⟨-, first, snd⟩
          obtain ⟨name, tail, rfl, -⟩ := (matchLevels_cons_iff hashed).mp first
          simp [matchLevels] at snd
        simp [overlapLevels, hashed, hn]
      | cons q req =>
        by_cases hash : q = "#"
        · subst hash
          have hs : (∃ names, Meets (r :: rule) ("#" :: req) names) ↔
              ∃ names, Meets ("#" :: req) (r :: rule) names :=
            exists_congr fun _ => ⟨Meets.symm, Meets.symm⟩
          rw [hs]
          simp only [meets_hash_iff, ← satisfiable_iff]
          simp [overlapLevels, hashed]
        · rw [exists_meets_cons_iff hashed hash, ← ih]
          simp [overlapLevels, hashed, hash]

/-! ### Topics in the overlap -/

/-- How a filter other than the empty one can match the single empty level. -/
inductive EmptyMatch : List String → Prop where
  | single : EmptyMatch ["+"]
  | all (rest : List String) : EmptyMatch ("#" :: rest)
  | below (rest : List String) : EmptyMatch ("+" :: "#" :: rest)
  | root (rest : List String) : EmptyMatch ("" :: "#" :: rest)

theorem emptyMatch_of_matches (hw : lvs ≠ [""]) (hm : matchLevels lvs [""] = true) :
    EmptyMatch lvs := by
  cases lvs with
  | nil => simp [matchLevels] at hm
  | cons level rest =>
    by_cases hh : level = "#"
    · subst hh
      exact .all rest
    · obtain ⟨name, tail, he, hit, fitTail⟩ := (matchLevels_cons_iff hh).mp hm
      obtain ⟨rfl, rfl⟩ : "" = name ∧ [] = tail := by simpa using he
      cases rest with
      | nil =>
        rcases hit with rfl | rfl
        · exact .single
        · exact absurd rfl hw
      | cons snd rest =>
        have secondHash : snd = "#" := by simpa [matchLevels] using fitTail
        subst secondHash
        rcases hit with rfl | rfl
        · exact .below rest
        · exact .root rest

def emptyRoot : List String → Bool
  | "" :: "#" :: _ => true
  | _ => false

theorem meetsInEmptyLevel_iff :
    meetsInEmptyLevel first snd = true ↔ emptyRoot first = true ∧ snd = ["+"] := by
  unfold meetsInEmptyLevel emptyRoot
  split
  next => simp
  next ho =>
    constructor
    · intro hi
      cases hi
    · rintro ⟨hr, rfl⟩
      split at hr
      next rest => exact absurd rfl (ho rest rfl)
      next => cases hr

theorem EmptyMatch.matches_single (hm : EmptyMatch lvs) (notRoot : emptyRoot lvs = false) :
    matchLevels lvs ["a"] = true := by
  cases hm with
  | root rest => simp [emptyRoot] at notRoot
  | _ => simp [matchLevels]

theorem EmptyMatch.matches_double (hm : EmptyMatch lvs) (hl : lvs ≠ ["+"]) :
    matchLevels lvs ["", "a"] = true := by
  cases hm with
  | single => exact absurd rfl hl
  | _ => simp [matchLevels]

/-- Two filters that meet in the single empty level meet in a topic, or only there. -/
theorem exists_topic_of_emptyMatch (fitFst : EmptyMatch first) (fitSnd : EmptyMatch snd)
    (ha : meetsInEmptyLevel first snd = false)
    (apart : meetsInEmptyLevel snd first = false) :
    ∃ names, TopicLevels names ∧ matchLevels first names = true ∧ matchLevels snd names = true := by
  have hs : TopicLevels ["a"] := ⟨by simp, by simp, by simpa using plain_a⟩
  have hd : TopicLevels ["", "a"] := ⟨by simp, by simp, by decide⟩
  rw [← Bool.not_eq_true, meetsInEmptyLevel_iff, not_and] at ha apart
  cases rootFst : emptyRoot first with
  | true =>
    have hl : first ≠ ["+"] := by
      rintro rfl
      exact absurd rootFst (by decide)
    exact ⟨_, hd, fitFst.matches_double hl, fitSnd.matches_double (ha rootFst)⟩
  | false =>
    cases rootSnd : emptyRoot snd with
    | true =>
      have hl : snd ≠ ["+"] := by
        rintro rfl
        exact absurd rootSnd (by decide)
      exact ⟨_, hd, fitFst.matches_double (apart rootSnd), fitSnd.matches_double hl⟩
    | false =>
      exact ⟨_, hs, fitFst.matches_single rootFst, fitSnd.matches_single rootSnd⟩

theorem not_topicLevels_of_meetsInEmptyLevel (ho : meetsInEmptyLevel first snd = true)
    (fitFst : matchLevels first names = true)
    (fitSnd : matchLevels snd names = true) : ¬TopicLevels names := by
  intro lvs
  obtain ⟨hr, rfl⟩ := meetsInEmptyLevel_iff.mp ho
  unfold emptyRoot at hr
  split at hr
  next rest =>
    obtain ⟨name, tail, rfl, hit, -⟩ := (matchLevels_cons_iff (by decide)).mp fitFst
    obtain rfl : "" = name := hit.resolve_left (by decide)
    have noTail : tail = [] := by simpa [matchLevels] using fitSnd
    exact lvs.named (by rw [noTail])
  next => cases hr

theorem overlap_iff_exists_topic (filledFst : first ≠ []) (filledSnd : snd ≠ [])
    (putFst : first ≠ [""]) (putSnd : snd ≠ [""]) :
    (overlapLevels first snd = true ∧ meetsInEmptyLevel first snd = false ∧
        meetsInEmptyLevel snd first = false) ↔
      ∃ names, TopicLevels names ∧ matchLevels first names = true ∧
        matchLevels snd names = true := by
  rw [overlapLevels_iff]
  constructor
  · rintro ⟨⟨names, hp, fitFst, fitSnd⟩, ha, apart⟩
    by_cases hn : names = []
    · -- only filters that start with `#` match no level, and those match every topic
      subst hn
      have all {lvs : List String} (hf : lvs ≠ [])
          (hm : matchLevels lvs [] = true) : matchLevels lvs ["a"] = true := by
        obtain ⟨level, rest, rfl⟩ := exists_cons_of_ne_nil hf
        have hh : level = "#" := by simpa [matchLevels] using hm
        simp [matchLevels, hh]
      exact ⟨["a"], ⟨by simp, by simp, by simpa using plain_a⟩, all filledFst fitFst,
        all filledSnd fitSnd⟩
    · rcases topicLevels_or_eq hn hp with lvs | rfl
      · exact ⟨names, lvs, fitFst, fitSnd⟩
      · exact exists_topic_of_emptyMatch (emptyMatch_of_matches putFst fitFst)
          (emptyMatch_of_matches putSnd fitSnd) ha apart
  · rintro ⟨names, lvs, fitFst, fitSnd⟩
    refine ⟨⟨names, lvs.plain, fitFst, fitSnd⟩, ?_, ?_⟩
    · rw [← Bool.not_eq_true]
      intro ho
      exact not_topicLevels_of_meetsInEmptyLevel ho fitFst fitSnd lvs
    · rw [← Bool.not_eq_true]
      intro ho
      exact not_topicLevels_of_meetsInEmptyLevel ho fitSnd fitFst lvs

theorem filtersOverlap_iff {first snd : String} : filtersOverlap first snd = true ↔
      ∃ topic, topic ≠ "" ∧ hasWildcard topic = false ∧ matchTopic first topic = true ∧
        matchTopic snd topic = true := by
  by_cases putFst : first = ""
  · simp [filtersOverlap, matchTopic, putFst]
  by_cases putSnd : snd = ""
  · simp [filtersOverlap, matchTopic, putSnd]
  have ho := overlap_iff_exists_topic (by simpa using putFst)
    (by simpa using putSnd) (splitTopicLevels_ne_emptyLevel first)
    (splitTopicLevels_ne_emptyLevel snd)
  have hu : filtersOverlap first snd = true ↔
      overlapLevels (splitTopicLevels first) (splitTopicLevels snd) = true ∧
        meetsInEmptyLevel (splitTopicLevels first) (splitTopicLevels snd) = false ∧
        meetsInEmptyLevel (splitTopicLevels snd) (splitTopicLevels first) = false := by
    simp [filtersOverlap, putFst, putSnd, and_assoc]
  rw [hu, ho]
  constructor
  · rintro ⟨names, lvs, fitFst, fitSnd⟩
    obtain ⟨topic, hn, hc, rfl⟩ := lvs.exists_topic
    refine ⟨topic, hn, hc, ?_, ?_⟩
    · rw [matchTopic_of_topic putFst hn hc, fitFst]
    · rw [matchTopic_of_topic putSnd hn hc, fitSnd]
  · rintro ⟨topic, hn, hc, fitFst, fitSnd⟩
    rw [matchTopic_of_topic putFst hn hc] at fitFst
    rw [matchTopic_of_topic putSnd hn hc] at fitSnd
    exact ⟨_, topicLevels_of_topic hn hc, fitFst, fitSnd⟩

/-! ## Access through a permitted subscription -/

section Access

variable {ruleset : Ruleset} {username : String} {clientID : ClientID}

/-- The filter is refused: a deny rule covers it, or no allow rule does and denial is the
default. -/
def Ruleset.Refuses (ruleset : Ruleset) (username : String) (clientID : ClientID)
    (topicFilter : String) : Prop :=
  topicFilter ≠ "" ∧
    ((∃ rule ∈ ruleset.applicable username clientID, ∃ filter ∈ rule.deny.sub,
        filterSuperset filter (authorizedFilter topicFilter) = true) ∨
      ruleset.defaultDeny = true ∧ ∀ rule ∈ ruleset.applicable username clientID,
        ∀ filter ∈ rule.allow.sub, filterSuperset filter (authorizedFilter topicFilter) = false)

def Ruleset.KeepsDenied (ruleset : Ruleset) (username : String) (clientID : ClientID)
    (topicFilter : String) : Prop :=
  ∀ topic, topic ≠ "" → hasWildcard topic = false →
    matchTopic (authorizedFilter topicFilter) topic = true →
      ∀ rule ∈ ruleset.applicable username clientID, ∀ filter ∈ rule.deny.sub,
        matchTopic filter topic = false

variable {filt : String}

theorem authorizedFilter_ne (hw : filt ≠ "") : authorizedFilter filt ≠ "" := by
  unfold authorizedFilter
  split
  next => exact hw
  next filled => exact filled

theorem allowSubscribe_ne_iff (hw : filt ≠ "") :
    ruleset.allowSubscribe username clientID (authorizedFilter filt) ≠ .ok true ↔
      ruleset.Refuses username clientID filt := by
  have cover (e : Rule → RuleEntry) : ((ruleset.applicable username clientID).any
        fun rule => (e rule).applies .subscribe (authorizedFilter filt)) = true ↔
      ∃ rule ∈ ruleset.applicable username clientID, ∃ filter ∈ (e rule).sub,
        filterSuperset filter (authorizedFilter filt) = true := by
    simp [RuleEntry.applies, anySuperset]
  rw [Ruleset.allowSubscribe, if_neg (authorizedFilter_ne hw), Ruleset.eval, Ruleset.Refuses,
    ← cover Rule.deny]
  split_ifs with hd ha
  · simp [hw, hd]
  · obtain ⟨rule, hm, filter, hl, hc⟩ := (cover Rule.allow).mp ha
    simp only [hd, ne_eq, not_true_eq_false, false_iff, not_and, not_or]
    refine fun _ => ⟨by simp, fun _ none => ?_⟩
    simp [none rule hm filter hl] at hc
  · have hu : ∀ rule ∈ ruleset.applicable username clientID, ∀ filter ∈ rule.allow.sub,
        filterSuperset filter (authorizedFilter filt) = false := by
      intro rule hm filter hl
      rw [← Bool.not_eq_true]
      intro hc
      exact ha ((cover Rule.allow).mpr ⟨rule, hm, filter, hl, hc⟩)
    have he : ruleset.defaultDeny = true ∧ (∀ rule ∈ ruleset.applicable username clientID,
        ∀ filter ∈ rule.allow.sub, filterSuperset filter (authorizedFilter filt) = false) ↔
        ruleset.defaultDeny = true := and_iff_left hu
    rw [he]
    simp [hw, hd]

theorem onSubscribe_ok_iff {filters : List String} : onSubscribe ruleset username clientID filters =
    .ok () ↔
      ∀ filt ∈ filters, ¬ruleset.Refuses username clientID filt := by
  induction filters with
  | nil => simp [onSubscribe]
  | cons filt rest ih =>
    rw [forall_mem_cons, ← ih]
    by_cases hw : filt = ""
    · simp [onSubscribe, Ruleset.Refuses, hw]
    · rw [← allowSubscribe_ne_iff hw, not_ne_iff, onSubscribe, if_neg hw]
      split
      next ha => simp [ha]
      next refused =>
        constructor
        · intro hi
          cases hi
        · rintro ⟨ha, -⟩
          exact (refused ha).elim

theorem keepsDenied_iff : ruleset.KeepsDenied username clientID filt ↔
      ∀ rule ∈ ruleset.applicable username clientID, ∀ filter ∈ rule.deny.sub,
        filtersOverlap filter (authorizedFilter filt) = false := by
  constructor
  · intro hk rule hm filter hl
    rw [← Bool.not_eq_true, filtersOverlap_iff]
    rintro ⟨topic, hn, hc, hd, hr⟩
    simp [hk topic hn hc hr rule hm filter hl] at hd
  · intro ha topic hn hc hr rule hm filter hl
    have apart := ha rule hm filter hl
    rw [← Bool.not_eq_true, filtersOverlap_iff] at apart
    rw [← Bool.not_eq_true]
    intro hd
    exact apart ⟨topic, hn, hc, hd, hr⟩

end Access

/-- An accepted SUBSCRIBE keeps denied topics away exactly when one of its filters is refused or
none overlaps a deny filter of the identity. -/
theorem subscription_keeps_denied_iff (ruleset : Ruleset) (username : String) (clientID : ClientID)
    (filters : List String) :
    (onSubscribe ruleset username clientID filters = .ok () →
      ∀ topicFilter ∈ filters, ruleset.KeepsDenied username clientID topicFilter) ↔
      (∃ topicFilter ∈ filters, ruleset.Refuses username clientID topicFilter) ∨
        ∀ topicFilter ∈ filters, ∀ rule ∈ ruleset.applicable username clientID,
          ∀ filter ∈ rule.deny.sub,
            filtersOverlap filter (authorizedFilter topicFilter) = false := by
  simp only [onSubscribe_ok_iff, keepsDenied_iff]
  constructor
  · intro hk
    by_cases hr : ∃ topicFilter ∈ filters, ruleset.Refuses username clientID topicFilter
    · exact .inl hr
    · right
      exact hk fun topicFilter hm refuses => hr ⟨topicFilter, hm, refuses⟩
  · rintro (⟨topicFilter, hm, refuses⟩ | apart) ha
    · exact absurd refuses (ha topicFilter hm)
    · exact apart

def secretRules : Ruleset where
  rules := [{ identity := { clientID := "c" }, deny := { sub := ["secret/#"] } }]

/-- A subscription to everything is permitted and reaches a denied topic. -/
theorem subscription_reaches_denied :
    onSubscribe secretRules "" "c" ["#"] = .ok () ∧ matchTopic "#" "secret/key" = true ∧
      ∃ rule ∈ secretRules.applicable "" "c", ∃ filter ∈ rule.deny.sub,
        matchTopic filter "secret/key" = true := by
  refine ⟨by decide, by decide, _, mem_singleton_self _, "secret/#", by decide, by decide⟩

end SkyTree.Acl
