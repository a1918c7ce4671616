import Mathlib.Data.List.Lex
import Mathlib.Data.Prod.Lex
import Mathlib.Order.OrderDual
import SkyTree.Subscription.Snapshot

/-!
# The option a client receives a publish under

Inside a shard a client keeps its option of highest QoS, and among those the most specific one.
Across shards only the QoS is compared, so the first shard wins a tie.
-/

namespace SkyTree.Subscription

open Foundation List

/-! ## The choice for one key -/

section Pick

variable {K V : Type} [DecidableEq K] (better : V → V → Bool)

def pick (kept : Option V) (value : V) : Option V :=
  match kept with
  | none => some value
  | some old => if better value old then some value else some old

def putBetter (table : Assoc K V) (entry : K × V) : Assoc K V :=
  match table.lookup entry.1 with
  | none => Assoc.set table entry.1 entry.2
  | some old => if better entry.2 old then Assoc.set table entry.1 entry.2 else table

def valuesOf (k : K) (entries : List (K × V)) : List V := (entries.filter (·.1 = k)).map Prod.snd

theorem mem_valuesOf {k : K} {v : V} {entries : List (K × V)} :
    v ∈ valuesOf k entries ↔ (k, v) ∈ entries := by
  simp [valuesOf]

theorem lookup_foldl_putBetter (k : K) (entries : List (K × V)) (table : Assoc K V) :
    (entries.foldl (putBetter better) table).lookup k =
      (valuesOf k entries).foldl (pick better) (table.lookup k) := by
  induction entries generalizing table with
  | nil => rfl
  | cons e rest ih =>
    rw [foldl_cons, ih]
    by_cases he : e.1 = k
    · subst he
      cases hl : table.lookup e.1 with
      | none => simp [valuesOf, putBetter, pick, hl]
      | some old => by_cases hb : better e.2 old = true <;> simp [valuesOf, putBetter, pick, hl, hb]
    · cases hl : table.lookup e.1 with
      | none => simp [valuesOf, putBetter, hl, he, Ne.symm he]
      | some old =>
        by_cases hb : better e.2 old = true <;> simp [valuesOf, putBetter, hl, hb, he, Ne.symm he]

/-- Nothing is left when nothing is offered; otherwise a value that all others are below. -/
def IsTop (below : V → V → Prop) (offered : V → Prop) : Option V → Prop
  | none => ∀ value, ¬offered value
  | some value => offered value ∧ ∀ other, offered other → below other value

theorem isTop_foldl_pick {below : V → V → Prop} (refl : ∀ value, below value value)
    (up : ∀ {first snd other}, better first snd = true → below other snd → below other first)
    (down : ∀ {first snd}, better first snd = false → below first snd) (values : List V) :
    IsTop below (· ∈ values) (values.foldl (pick better) none) := by
  induction values using List.reverseRecOn with
  | nil => exact fun _ => not_mem_nil
  | append_singleton values value ih =>
    rw [foldl_append, foldl_cons, foldl_nil]
    simp only [mem_append, mem_singleton]
    generalize values.foldl (pick better) none = kept at ih
    cases kept with
    | none => exact ⟨.inr rfl, fun other offered => (offered.resolve_left (ih other)) ▸ refl value⟩
    | some old =>
      obtain ⟨member, top⟩ := ih
      rw [pick]
      split
      next beats =>
        refine ⟨.inr rfl, fun other offered => ?_⟩
        rcases offered with earlier | rfl
        · exact up beats (top other earlier)
        · exact refl other
      next keeps =>
        refine ⟨.inl member, fun other offered => ?_⟩
        rcases offered with earlier | rfl
        · exact top other earlier
        · exact down (Bool.eq_false_of_not_eq_true keeps)

end Pick

/-! ## The order of filters -/

def specificity (filter : String) : ℕ ×ₗ ℕᵒᵈ ×ₗ List Char :=
  toLex ((splitTopicLevels filter).countP fun level => level = "+" || level = "#",
    toLex (OrderDual.toDual (splitTopicLevels filter).length, filter.toList))

theorem specificity_injective : Function.Injective specificity := fun _ _ same =>
  String.toList_inj.mp (congrArg (fun key => (ofLex (ofLex key).2).2) same)

theorem isMoreSpecificFilter_iff {first snd : String} :
    isMoreSpecificFilter first snd = true ↔ specificity first < specificity snd := by
  simp only [isMoreSpecificFilter, specificity, Prod.Lex.toLex_lt_toLex]
  split_ifs with wildcards depth
  · simp [wildcards]
  · simp [not_not.mp wildcards, depth]
  · simp [not_not.mp wildcards, not_not.mp depth]

/-! ## The merge of visited nodes -/

def preferred (incoming existing : SubOption) : Bool :=
  incoming.qos > existing.qos ∨
    incoming.qos = existing.qos ∧ isMoreSpecificFilter incoming.topic existing.topic

theorem preferred_iff {incoming existing : SubOption} : preferred incoming existing = true ↔
    toLex (-incoming.qos, specificity incoming.topic) <
      toLex (-existing.qos, specificity existing.topic) := by
  rw [preferred, decide_eq_true_eq, isMoreSpecificFilter_iff, Prod.Lex.toLex_lt_toLex]
  exact or_congr neg_lt_neg_iff.symm (and_congr_left' neg_inj.symm)

def Yields (option other : SubOption) : Prop := preferred option other = false

def NotAbove (option other : SubOption) : Prop := option.qos ≤ other.qos

theorem Yields.notAbove {option other : SubOption} (yields : Yields option other) :
    NotAbove option other := by
  rw [Yields, preferred, decide_eq_false_iff_not] at yields
  exact not_lt.mp fun above => yields (.inl above)

def higherQoS (incoming existing : SubOption) : Bool := incoming.qos > existing.qos

def shardAnswer (nodes : List TreeNode) : Assoc ClientID SubOption :=
  nodes.foldl mergeMatchedNodeClients .empty

def answerOver (shards : List (List TreeNode)) : Assoc ClientID SubOption :=
  shards.foldl (fun response nodes =>
    (shardAnswer nodes).entries.foldl (putBetter higherQoS) response)
    .empty

def Held (shards : List (List TreeNode)) (clientID : ClientID) (option : SubOption) : Prop :=
  ∃ nodes ∈ shards, ∃ node ∈ nodes, (clientID, option) ∈ node.client.entries

theorem MemorySubCenter.getAllMatchClient_eq (cen : MemorySubCenter) (topic : String) :
    cen.getAllMatchClient topic = answerOver ((cen.shardsAt (shardKeysForMatch topic)).map
      fun core => core.walkMatchingTopicNodes topic) := by
  rw [answerOver, foldl_map]
  rfl

theorem isTop_shardAnswer (cid : ClientID) (nodes : List TreeNode) :
    IsTop Yields (fun option => ∃ node ∈ nodes, (cid, option) ∈ node.client.entries)
      ((shardAnswer nodes).lookup cid) := by
  have merges : mergeMatchedClient = putBetter preferred := by
    funext table entry
    unfold mergeMatchedClient putBetter preferred
    cases table.lookup entry.1 <;> simp
  have top : IsTop Yields _ _ := isTop_foldl_pick preferred ?_ ?_ id
    (valuesOf cid (nodes.flatMap fun node => node.client.entries))
  · rw [← Assoc.lookup_empty cid, ← lookup_foldl_putBetter, foldl_flatMap, ← merges] at top
    simp only [mem_valuesOf, mem_flatMap] at top
    exact top
  · intro value
    exact Bool.eq_false_of_not_eq_true fun beats => lt_irrefl _ (preferred_iff.mp beats)
  · intro first snd other beats yields
    refine Bool.eq_false_of_not_eq_true fun wins => ?_
    have := preferred_iff.mpr ((preferred_iff.mp wins).trans (preferred_iff.mp beats))
    exact Bool.false_ne_true (yields.symm.trans this)

theorem lookup_answerOver (cid : ClientID) (shards : List (List TreeNode)) :
    (answerOver shards).lookup cid = (valuesOf cid (shards.flatMap fun nodes =>
      (shardAnswer nodes).entries)).foldl (pick higherQoS) none := by
  rw [answerOver, ← Assoc.lookup_empty cid, ← lookup_foldl_putBetter, foldl_flatMap]

theorem isTop_shardAnswers (shards : List (List TreeNode)) (cid : ClientID) :
    IsTop NotAbove (fun option => ∃ nodes ∈ shards, (shardAnswer nodes).lookup cid = some option)
      ((answerOver shards).lookup cid) := by
  have top : IsTop NotAbove _ _ := isTop_foldl_pick higherQoS ?_ ?_ ?_
    (valuesOf cid (shards.flatMap fun nodes => (shardAnswer nodes).entries))
  · rw [← lookup_answerOver] at top
    simpa only [mem_valuesOf, mem_flatMap, ← Assoc.lookup_eq_some_iff] using top
  · exact fun _ => Int.le_refl _
  · exact fun above below => Int.le_trans below (of_decide_eq_true above).le
  · exact fun keeps => Int.not_lt.mp (of_decide_eq_false keeps)

theorem isTop_answerOver (shards : List (List TreeNode)) (cid : ClientID) :
    IsTop NotAbove (Held shards cid) ((answerOver shards).lookup cid) := by
  have top := isTop_shardAnswers shards cid
  -- an option met in a shard is below the shard's own answer
  have inShard {option} : Held shards cid option → ∃ best, (∃ nodes ∈ shards,
      (shardAnswer nodes).lookup cid = some best) ∧ NotAbove option best := by
    rintro ⟨nodes, visited, met⟩
    have first := isTop_shardAnswer cid nodes
    cases found : (shardAnswer nodes).lookup cid with
    | none =>
      rw [found] at first
      exact absurd met (first option)
    | some best =>
      rw [found] at first
      exact ⟨best, ⟨nodes, visited, found⟩, (first.2 option met).notAbove⟩
  cases found : (answerOver shards).lookup cid with
  | none =>
    rw [found] at top
    intro option held
    obtain ⟨best, answered, -⟩ := inShard held
    exact top best answered
  | some option =>
    rw [found] at top
    obtain ⟨⟨nodes, visited, answered⟩, below⟩ := top
    have first := isTop_shardAnswer cid nodes
    rw [answered] at first
    refine ⟨⟨nodes, visited, first.1⟩, fun other held => ?_⟩
    obtain ⟨best, answered, above⟩ := inShard held
    exact Int.le_trans above (below best answered)

theorem answerOver_first {shards : List (List TreeNode)} {cid : ClientID} {opt : SubOption}
    (hle : ∀ o, Held shards cid o → o.qos ≤ opt.qos) :
    (answerOver ([.mk "" "" (Assoc.set .empty cid opt) none] :: shards)).lookup cid = some opt := by
  have hf : (shardAnswer [.mk "" "" (Assoc.set .empty cid opt) none]).entries = [(cid, opt)] := rfl
  rw [lookup_answerOver, flatMap_cons, hf, valuesOf, filter_append, map_append,
    foldl_append, filter_cons_of_pos (by simp)]
  have hr : ∀ o ∈ valuesOf cid (shards.flatMap fun nodes => (shardAnswer nodes).entries),
      higherQoS o opt = false := by
    intro o ho
    simp only [mem_valuesOf, mem_flatMap, ← Assoc.lookup_eq_some_iff] at ho
    obtain ⟨nodes, hn, hl⟩ := ho
    have hi := isTop_shardAnswer cid nodes
    rw [hl] at hi
    exact decide_eq_false (not_lt.mpr (hle o ⟨nodes, hn, hi.1⟩))
  change (valuesOf cid _).foldl (pick higherQoS) (some opt) = some opt
  generalize valuesOf cid _ = values at hr
  induction values with
  | nil => rfl
  | cons o rest ih =>
    obtain ⟨ho, hr⟩ := forall_mem_cons.mp hr
    rw [foldl_cons, pick, ho, if_neg Bool.false_ne_true]
    exact ih hr

/-! ## The center -/

namespace AgreedCenter

variable (center : AgreedCenter) (topic : String)

def Matches (clientID : ClientID) (option : SubOption) : Prop :=
  center.Stores clientID option ∧ MemorySubCenter.Walked option.topic topic

def Best (clientID : ClientID) (option : SubOption) : Prop :=
  center.Matches topic clientID option ∧ ∀ other, center.Matches topic clientID other →
    other ≠ option → other.qos < option.qos ∨
      other.qos = option.qos ∧ isMoreSpecificFilter option.topic other.topic

/-- No client has two different options of its highest QoS. -/
def NoTies : Prop :=
  ∀ clientID option other, center.Matches topic clientID option →
    center.Matches topic clientID other → option.qos = other.qos →
      (∀ third, center.Matches topic clientID third → third.qos ≤ option.qos) → option = other

/-- No client has options of its highest QoS in two shards. -/
def NoTiesAcrossShards : Prop :=
  ∀ clientID option other, center.Matches topic clientID option →
    center.Matches topic clientID other → option.qos = other.qos →
      (∀ third, center.Matches topic clientID third → third.qos ≤ option.qos) →
        shardKeyFromTopic option.topic = shardKeyFromTopic other.topic

variable {center topic}

theorem matchedSubscriptionFromOption_inj {option other : SubOption} :
    matchedSubscriptionFromOption option = matchedSubscriptionFromOption other ↔
      option = other := by
  cases option
  cases other
  simp [matchedSubscriptionFromOption]

theorem mem_hits_iff_met {core : SubCore} {cid : ClientID} {option : SubOption} :
    (cid, matchedSubscriptionFromOption option) ∈ core.hits topic ↔
      ∃ node ∈ core.walkMatchingTopicNodes topic, (cid, option) ∈ node.client.entries := by
  simp only [SubCore.hits, TreeNode.hits, mem_flatMap, mem_map, Prod.mk.injEq]
  refine exists_congr fun node => and_congr_right' ⟨?_, fun met => ⟨_, met, rfl, rfl⟩⟩
  rintro ⟨⟨client, other⟩, met, rfl, same⟩
  exact matchedSubscriptionFromOption_inj.mp same ▸ met

theorem held_iff_matches (named : topic ≠ "") (plain : hasWildcard topic = false)
    {cid : ClientID} {option : SubOption} : Held ((center.shardsAt (shardKeysForMatch topic)).map
      fun core => core.walkMatchingTopicNodes topic) cid option ↔
        center.Matches topic cid option := by
  have returned : (cid, matchedSubscriptionFromOption option) ∈ _ ↔ _ :=
    MemorySubCenter.mem_returned_iff center.agree named plain
  simp only [(center.returned_perm topic).mem_iff, matchedSubscriptionFromOption_inj,
    exists_eq_right', ← and_assoc] at returned
  rw [Matches, ← returned]
  simp only [Held, MemorySubCenter.shardsAt, mem_map, mem_filterMap, mem_flatMap,
    MemorySubCenter.hitsIn]
  constructor
  · rintro ⟨_, ⟨core, ⟨key, visited, found⟩, rfl⟩, met⟩
    refine ⟨key, visited, ?_⟩
    rw [found]
    exact mem_hits_iff_met.mpr met
  · rintro ⟨key, visited, hit⟩
    cases found : center.shards.lookup key with
    | none => simp [found] at hit
    | some core =>
      rw [found] at hit
      exact ⟨_, ⟨core, ⟨key, visited, found⟩, rfl⟩, mem_hits_iff_met.mp hit⟩

theorem stored_of_met (named : topic ≠ "") (plain : hasWildcard topic = false) {key : String}
    {core : SubCore} (found : center.shards.lookup key = some core) {cid : ClientID}
    {option : SubOption}
    (met : ∃ node ∈ core.walkMatchingTopicNodes topic, (cid, option) ∈ node.client.entries) :
    option ∈ core.topicsOf cid ∧ shardKeyFromTopic option.topic = key := by
  have agrees := center.agree key core found
  have hit := mem_hits_iff_met.mpr met
  obtain ⟨stored, member, -, same⟩ :=
    (SubCore.mem_hits_iff agrees (validatePublishTopic_eq_ok.mpr ⟨named, plain⟩)).mp hit
  obtain rfl := matchedSubscriptionFromOption_inj.mp same
  exact ⟨member, agrees.keyed cid option member⟩

theorem Best.unique {cid : ClientID} {first snd : SubOption} (best : center.Best topic cid first)
    (other : center.Best topic cid snd) : first = snd := by
  by_contra differ
  have above := best.2 snd other.1 (Ne.symm differ)
  have below := other.2 first best.1 differ
  rw [isMoreSpecificFilter_iff] at above below
  rcases above with higher | ⟨same, wins⟩ <;> rcases below with lower | ⟨_, loses⟩
  · omega
  · omega
  · omega
  · exact lt_asymm wins loses

/-- Of two options of a client in one shard and with one QoS the more specific one wins. -/
theorem moreSpecific_of_yields {core : SubCore} {cid : ClientID} {option other : SubOption}
    (stored : option ∈ core.topicsOf cid) (otherStored : other ∈ core.topicsOf cid)
    (differ : other ≠ option) (equal : other.qos = option.qos) (yields : Yields other option) :
    isMoreSpecificFilter option.topic other.topic = true := by
  rw [isMoreSpecificFilter_iff]
  rcases lt_trichotomy (specificity option.topic) (specificity other.topic) with
    wins | same | loses
  · exact wins
  · have sameTopic := specificity_injective same.symm
    exact absurd ((core.topicsOf cid).eq_of_key_eq otherStored stored sameTopic) differ
  · have preferred : preferred other option = true :=
      decide_eq_true (.inr ⟨equal, isMoreSpecificFilter_iff.mpr loses⟩)
    exact absurd (yields.symm.trans preferred) Bool.false_ne_true

/-- Every client receives its best option as long as no two shards tie. -/
theorem best_option_of_untied_shards (named : topic ≠ "") (plain : hasWildcard topic = false)
    (untied : center.NoTiesAcrossShards topic) (clientID : ClientID) (option : SubOption) :
    (center.getAllMatchClient topic).lookup clientID = some option ↔
      center.Best topic clientID option := by
  have held {option} := @held_iff_matches center topic named plain clientID option
  have top := isTop_answerOver ((center.shardsAt (shardKeysForMatch topic)).map
    fun core => core.walkMatchingTopicNodes topic) clientID
  have fromShard := isTop_shardAnswers ((center.shardsAt (shardKeysForMatch topic)).map
    fun core => core.walkMatchingTopicNodes topic) clientID
  rw [← center.getAllMatchClient_eq] at top fromShard
  have isBest {best} (answered : (center.getAllMatchClient topic).lookup clientID = some best) :
      center.Best topic clientID best := by
    rw [answered] at top fromShard
    obtain ⟨isHeld, above⟩ := top
    refine ⟨held.mp isHeld, fun other isMatch differ => ?_⟩
    rcases (above other (held.mpr isMatch)).lt_or_eq with lower | equal
    · exact .inl lower
    obtain ⟨⟨_, visited, answer⟩, -⟩ := fromShard
    obtain ⟨core, asked, rfl⟩ := mem_map.mp visited
    obtain ⟨key, -, found⟩ := mem_filterMap.mp asked
    obtain ⟨_, visited, met⟩ := held.mpr isMatch
    obtain ⟨otherCore, otherAsked, rfl⟩ := mem_map.mp visited
    obtain ⟨otherKey, -, otherFound⟩ := mem_filterMap.mp otherAsked
    have inShard := isTop_shardAnswer clientID (core.walkMatchingTopicNodes topic)
    rw [answer] at inShard
    obtain ⟨stored, rfl⟩ := stored_of_met named plain found inShard.1
    obtain ⟨otherStored, rfl⟩ := stored_of_met named plain otherFound met
    -- a tie is met in the shard of the answer
    rw [← untied clientID best other (held.mp isHeld) isMatch equal.symm
      fun third isThird => above third (held.mpr isThird)] at otherFound
    obtain rfl : core = otherCore := Option.some.inj (found.symm.trans otherFound)
    exact .inr ⟨equal, moreSpecific_of_yields stored otherStored differ equal (inShard.2 other met)⟩
  refine ⟨isBest, fun best => ?_⟩
  cases answered : (center.getAllMatchClient topic).lookup clientID with
  | none =>
    rw [answered] at top
    exact absurd (held.mpr best.1) (top option)
  | some other => rw [(isBest answered).unique best]

theorem NoTies.isTop_unique (untied : center.NoTies topic) {cid : ClientID}
    {first snd : Option SubOption} (top : IsTop NotAbove (center.Matches topic cid) first)
    (other : IsTop NotAbove (center.Matches topic cid) snd) : first = snd := by
  cases first with
  | none =>
    cases snd with
    | none => rfl
    | some second => exact absurd other.1 (top second)
  | some option =>
    cases snd with
    | none => exact absurd top.1 (other option)
    | some second =>
      have same : option.qos = second.qos :=
        (other.2 option top.1).antisymm (top.2 second other.1)
      rw [untied cid option second top.1 other.1 same top.2]

/-- Every client receives its best option, in whatever shards and order the matching nodes are
met, exactly when no client has a tie. -/
theorem best_option_iff (named : topic ≠ "") (plain : hasWildcard topic = false) : (∀ clientID,
      (∀ option, (center.getAllMatchClient topic).lookup clientID = some option ↔
        center.Best topic clientID option) ∧
      ∀ shards : List (List TreeNode),
        (∀ client option, Held shards client option ↔ center.Matches topic client option) →
          (answerOver shards).lookup clientID = (center.getAllMatchClient topic).lookup clientID) ↔
      center.NoTies topic := by
  have hh := @held_iff_matches center topic named plain
  rw [center.getAllMatchClient_eq]
  generalize (center.shardsAt (shardKeysForMatch topic)).map
    (fun core => core.walkMatchingTopicNodes topic) = own at hh
  have ht {shards} (hs : ∀ client option, Held shards client option ↔
      center.Matches topic client option) (clientID : ClientID) :
      IsTop NotAbove (center.Matches topic clientID) ((answerOver shards).lookup clientID) := by
    rw [← show Held shards clientID = center.Matches topic clientID from
      funext fun option => propext (hs clientID option)]
    exact isTop_answerOver shards clientID
  constructor
  · -- each of two equals is the answer when its node is met first
    intro hp clientID option other hm ho hq hle
    have hf {first : SubOption} (hm : center.Matches topic clientID first)
        (hle : ∀ third, center.Matches topic clientID third → third.qos ≤ first.qos) :
        some first = (answerOver own).lookup clientID := by
      rw [← answerOver_first fun third ht => hle third (hh.mp ht)]
      refine (hp clientID).2 _ fun client third => ?_
      rw [← hh]
      simp only [Held, exists_mem_cons_iff, mem_singleton, exists_eq_left]
      refine or_iff_right_of_imp fun he => ?_
      obtain ⟨rfl, rfl⟩ := Prod.mk.inj (mem_singleton.mp he)
      exact hh.mpr hm
    exact Option.some.inj ((hf hm hle).trans (hf ho (hq ▸ hle)).symm)
  · intro hu clientID
    have hown := ht (fun _ _ => hh) clientID
    refine ⟨fun option => ⟨fun hl => ?_, fun hb => hu.isTop_unique hown ?_⟩,
      fun shards hs => hu.isTop_unique (ht hs clientID) hown⟩
    · rw [hl] at hown
      refine ⟨hown.1, fun other ho hne => .inl (lt_of_le_of_ne (hown.2 other ho) fun hq => ?_)⟩
      exact hne (hu clientID option other hown.1 ho hq.symm hown.2).symm
    · refine ⟨hb.1, fun other ho => ?_⟩
      by_cases he : other = option
      · exact he ▸ Int.le_refl _
      · rcases hb.2 other ho he with hlt | ⟨hq, -⟩
        · exact hlt.le
        · exact hq.le

/-- `alice` holds `a/#` and `+/b/c` with the same QoS. -/
def tiedCenter : AgreedCenter :=
  .after .empty [.createSub "alice" "" [{ topic := "a/#", qos := 1 },
    { topic := "+/b/c", qos := 1 }]]

theorem best_option_untied : tiedCenter.NoTies "x/b/c" ∧
    ∀ option, (tiedCenter.getAllMatchClient "x/b/c").lookup "alice" = some option ↔
      tiedCenter.Best "x/b/c" "alice" option := by
  have hn : tiedCenter.NoTies "x/b/c" := by
    have hs {clientID option} (hm : tiedCenter.Matches "x/b/c" clientID option) :
        option = { topic := "+/b/c", qos := 1 } := by
      obtain ⟨nodes, hn, node, hw, he⟩ := (held_iff_matches (by decide) (by decide)).mpr hm
      have ho : (clientID, option) ∈ ((tiedCenter.shardsAt (shardKeysForMatch "x/b/c")).map
          fun core => core.walkMatchingTopicNodes "x/b/c").flatten.flatMap
            fun node => node.client.entries :=
        mem_flatMap.mpr ⟨node, mem_flatten.mpr ⟨nodes, hn, hw⟩, he⟩
      exact (Prod.mk.inj (mem_singleton.mp ho)).2
    intro clientID option other hm ho _ _
    rw [hs hm, hs ho]
  exact ⟨hn, ((best_option_iff (by decide) (by decide)).mpr hn "alice").1⟩

/-- The shard of `a` is visited before that of `+`, so the less specific option is returned. -/
theorem less_specific_option : tiedCenter.Reachable ∧
    (tiedCenter.getAllMatchClient "a/b/c").lookup "alice" = some { topic := "a/#", qos := 1 } ∧
    tiedCenter.Matches "a/b/c" "alice" { topic := "+/b/c", qos := 1 } ∧
    isMoreSpecificFilter "+/b/c" "a/#" = true := by
  refine ⟨.perform _ .empty, by decide, ?_, by decide⟩
  refine (held_iff_matches (by decide) (by decide)).mp ?_
  exact ⟨_, .tail _ (.head _), _, .head _, .head _⟩

end AgreedCenter

end SkyTree.Subscription
