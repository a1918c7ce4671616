import SkyTree.Retain.Store

/-!
# Reading and collecting retained messages

The latest message put under a topic and not deleted since is what a reader should
get while it is unexpired. With Badger the topics that a listing reports carry the
hash key in front, so a wildcard filter is matched against that longer name and an
expired message is deleted under it.
-/

namespace SkyTree.Retain

open Foundation Subscription List

universe u v

/-- The serialisation of stored messages. -/
structure MessageCodec (Data : Type v) where
  marshal : RetainMessage → Data
  unmarshal : Data → Option RetainMessage
  unmarshal_marshal : ∀ message, unmarshal (marshal message) = some message

def getTopicRetainKey : String := "skyTree/retain"

section Operations

variable {Store : Type u} {Data : Type v} (hash : HashStore Store Data) (codec : MessageCodec Data)

def putRetainMessage (s : Store) (message : RetainMessage) : Store :=
  hash.hSet s getTopicRetainKey message.topic (codec.marshal message)

def deleteRetainMessage (s : Store) (topic : String) : Store :=
  hash.hDel s getTopicRetainKey [topic]

def served (filter : String) (now : Int) (entry : String × Data) : Option RetainMessage :=
  if matchTopicFilter filter entry.1 then
    match codec.unmarshal entry.2 with
    | none => none
    | some message => if isExpired message now then none else some message
  else none

def lazilyDeleted (filter : String) (now : Int) (entry : String × Data) : Bool :=
  matchTopicFilter filter entry.1 &&
    match codec.unmarshal entry.2 with
    | none => false
    | some message => isExpired message now

def getRetainMessagesByTopicFilter (s : Store) (filter : String) (now : Int) :
    List RetainMessage × Store :=
  let all := hash.hGetAll s getTopicRetainKey
  (all.filterMap (served codec filter now),
    hash.hDel s getTopicRetainKey ((all.filter (lazilyDeleted codec filter now)).map Prod.fst))

/-- A listed entry that the collection deletes; data that does not decode goes too. -/
def collected (now : Int) (entry : String × Data) : Bool :=
  match codec.unmarshal entry.2 with
  | none => true
  | some message => isExpired message now

def expiredTopics (s : Store) (now : Int) : List String :=
  ((hash.hGetAll s getTopicRetainKey).filter (collected codec now)).map Prod.fst

def runGCOnce (s : Store) (now : Int) : Nat × Store :=
  ((expiredTopics hash codec s now).length,
    hash.hDel s getTopicRetainKey (expiredTopics hash codec s now))

def held (s : Store) (topic : String) : Option RetainMessage :=
  (hash.hGet s getTopicRetainKey topic).bind codec.unmarshal

end Operations

/-! ## Sequences of puts and deletes -/

inductive RetainCall where
  | put (message : RetainMessage)
  | delete (topic : String)
  deriving DecidableEq, Repr

variable (calls : List RetainCall)

/-- The message that was put last under a topic, unless it was deleted since. -/
def latest (topic : String) : Option RetainMessage :=
  calls.foldl (fun current call =>
    match call with
    | .put message => if message.topic = topic then some message else current
    | .delete deleted => if deleted = topic then none else current) none

theorem latest_append_put (msg : RetainMessage) (topic : String) :
    latest (calls ++ [.put msg]) topic =
      if msg.topic = topic then some msg else latest calls topic := by
  simp [latest]

theorem latest_append_delete (deleted topic : String) : latest (calls ++ [.delete deleted]) topic =
      if deleted = topic then none else latest calls topic := by
  simp [latest]

theorem topic_of_latest {calls : List RetainCall} {topic : String} {msg : RetainMessage}
    (hk : latest calls topic = some msg) : msg.topic = topic := by
  induction calls using List.reverseRecOn with
  | nil => cases hk
  | append_singleton calls call ih =>
    cases call with
    | put o =>
      rw [latest_append_put] at hk
      split at hk
      · case isTrue same => rwa [← Option.some.inj hk]
      · exact ih hk
    | delete o =>
      rw [latest_append_delete] at hk
      split_ifs at hk
      exact ih hk

section Sequences

variable {Store : Type u} {Data : Type v} (hash : HashStore Store Data) (codec : MessageCodec Data)

def RetainCall.apply (s : Store) : RetainCall → Store
  | .put message => putRetainMessage hash codec s message
  | .delete topic => deleteRetainMessage hash s topic

def stored (calls : List RetainCall) : Store :=
  calls.foldl (RetainCall.apply hash codec) hash.empty

variable {hash} {listed : String → String} (lawful : hash.Lawful getTopicRetainKey listed)

include lawful

theorem hGet_stored (calls : List RetainCall) (topic : String) :
    hash.hGet (stored hash codec calls) getTopicRetainKey topic =
      (latest calls topic).map codec.marshal := by
  induction calls using List.reverseRecOn with
  | nil => exact lawful.hGet_empty topic
  | append_singleton calls call ih =>
    have hl : stored hash codec (calls ++ [call]) =
        call.apply hash codec (stored hash codec calls) := by
      simp [stored]
    rw [hl]
    cases call with
    | put msg =>
      rw [latest_append_put, RetainCall.apply, putRetainMessage]
      by_cases he : msg.topic = topic
      · subst he
        rw [if_pos rfl, lawful.hGet_hSet_self, Option.map_some]
      · rw [if_neg he, lawful.hGet_hSet_of_ne _ _ (Ne.symm he), ih]
    | delete deleted =>
      rw [latest_append_delete, RetainCall.apply, deleteRetainMessage]
      by_cases he : deleted = topic
      · rw [if_pos he, lawful.hGet_hDel_of_mem _ (by simp [he])]
        rfl
      · have ho : topic ∉ [deleted] := by simpa using Ne.symm he
        rw [if_neg he, lawful.hGet_hDel_of_not_mem _ ho, ih]

theorem held_stored (calls : List RetainCall) (topic : String) :
    held hash codec (stored hash codec calls) topic = latest calls topic := by
  rw [held, hGet_stored codec lawful]
  cases latest calls topic with
  | none => rfl
  | some msg => exact codec.unmarshal_marshal msg

variable {calls : List RetainCall}

theorem mem_listing {e : String × Data} :
    e ∈ hash.hGetAll (stored hash codec calls) getTopicRetainKey ↔
      ∃ topic msg, latest calls topic = some msg ∧ e = (listed topic, codec.marshal msg) := by
  obtain ⟨name, data⟩ := e
  simp only [lawful.mem_hGetAll, hGet_stored codec lawful, Option.map_eq_some_iff, Prod.mk.injEq]
  constructor
  · rintro ⟨topic, rfl, msg, hk, rfl⟩
    exact ⟨topic, msg, hk, rfl, rfl⟩
  · rintro ⟨topic, msg, hk, rfl, rfl⟩
    exact ⟨topic, rfl, msg, hk, rfl⟩

theorem mem_getRetainMessagesByTopicFilter {filter : String} {now : Int} {msg : RetainMessage} :
    msg ∈ (getRetainMessagesByTopicFilter hash codec (stored hash codec calls) filter now).1 ↔
      ∃ topic, latest calls topic = some msg ∧ isExpired msg now = false ∧
        matchTopicFilter filter (listed topic) = true := by
  simp only [getRetainMessagesByTopicFilter, mem_filterMap, mem_listing codec lawful]
  constructor
  · rintro ⟨e, ⟨topic, o, hk, rfl⟩, hr⟩
    simp only [served, codec.unmarshal_marshal] at hr
    split at hr
    · case isTrue fits =>
        split at hr
        · cases hr
        · case isFalse hf =>
            cases hr
            exact ⟨topic, hk, by simpa using hf, fits⟩
    · cases hr
  · rintro ⟨topic, hk, hf, fits⟩
    exact ⟨_, ⟨topic, msg, hk, rfl⟩, by simp [served, codec.unmarshal_marshal, hf, fits]⟩

theorem nodup_getRetainMessagesByTopicFilter (calls : List RetainCall) (filter : String)
    (now : Int) :
    (getRetainMessagesByTopicFilter hash codec (stored hash codec calls) filter now).1.Nodup := by
  have hn : (hash.hGetAll (stored hash codec calls) getTopicRetainKey).Pairwise
      fun first second => first.1 ≠ second.1 :=
    pairwise_map.mp (lawful.nodup_hGetAll _)
  refine pairwise_filterMap.mpr (hn.imp_of_mem ?_)
  intro first second inFst inSnd ha message hr other backToo he
  obtain ⟨topic, inside, hk, rfl⟩ := (mem_listing codec lawful).mp inFst
  obtain ⟨topicToo, insideToo, keptToo, rfl⟩ := (mem_listing codec lawful).mp inSnd
  have hc : ∀ {name inside message}, served codec filter now (name, codec.marshal inside) =
      some message → inside = message := by
    intro name inside message hr
    simp only [served, codec.unmarshal_marshal] at hr
    grind
  obtain rfl := hc hr
  obtain rfl := hc backToo
  subst he
  rw [← topic_of_latest hk, ← topic_of_latest keptToo] at ha
  exact ha rfl

theorem mem_expiredTopics {now : Int} {name : String} :
    name ∈ expiredTopics hash codec (stored hash codec calls) now ↔
      ∃ topic msg, latest calls topic = some msg ∧ isExpired msg now = true ∧
        name = listed topic := by
  simp only [expiredTopics, mem_map, mem_filter, mem_listing codec lawful]
  constructor
  · rintro ⟨e, ⟨⟨topic, msg, hk, rfl⟩, hd⟩, rfl⟩
    exact ⟨topic, msg, hk, by simpa [collected, codec.unmarshal_marshal] using hd, rfl⟩
  · rintro ⟨topic, msg, hk, he, rfl⟩
    exact ⟨_, ⟨⟨topic, msg, hk, rfl⟩, by simpa [collected, codec.unmarshal_marshal] using he⟩, rfl⟩

theorem held_runGCOnce {now : Int} {topic : String} :
    held hash codec (runGCOnce hash codec (stored hash codec calls) now).2 topic =
      if topic ∈ expiredTopics hash codec (stored hash codec calls) now then none
      else latest calls topic := by
  rw [runGCOnce, held]
  split
  · case isTrue deleted =>
      rw [lawful.hGet_hDel_of_mem _ deleted]
      rfl
  · case isFalse kept =>
      rw [lawful.hGet_hDel_of_not_mem _ kept, ← held, held_stored codec lawful]

end Sequences

/-! ## Topics behind the hash key -/

/-- The levels of a topic with the hash key in front: the key adds a level and grows the
first one. -/
def keyLevels (topic : String) : List String :=
  "skyTree" :: ("retain" ++ (levelsOf topic.toList).headD "") :: (levelsOf topic.toList).tail

theorem splitTopicLevels_key (topic : String) :
    splitTopicLevels (getTopicRetainKey ++ topic) = keyLevels topic := by
  have hc : (getTopicRetainKey ++ topic).toList =
      "skyTree".toList ++ '/' :: ("retain".toList ++ topic.toList) := by
    rw [String.toList_append]
    rfl
  have hn : getTopicRetainKey ++ topic ≠ "" := by
    intro bare
    simp [bare] at hc
  rw [splitTopicLevels_of_ne hn, hc, levelsOf_append_cons (by decide), keyLevels]
  cases hl : levelsOf topic.toList with
  | nil => exact absurd hl (levelsOf_ne_nil _)
  | cons first rest =>
    rw [levelsOf_append (by decide) hl]
    simp only [headD_cons, tail_cons, String.ofList_append, String.ofList_toList]

def matchesKey (filter topic : String) : Bool :=
  decide (filter ≠ "") && matchLevels (splitTopicLevels filter) (keyLevels topic)

theorem matchTopicFilter_key (filter topic : String) :
    matchTopicFilter filter (getTopicRetainKey ++ topic) = matchesKey filter topic := by
  have hv : rootHidden (splitTopicLevels filter) (keyLevels topic) = false := by
    have hr : startsWith "skyTree" "$" = false := by decide
    simp [rootHidden, keyLevels, hr]
  have hn : getTopicRetainKey ++ topic ≠ "" := by
    intro bare
    have hl := splitTopicLevels_key topic
    rw [bare] at hl
    cases hl
  rw [matchTopicFilter, splitTopicLevels_key, hv, matchesKey]
  by_cases he : filter = "" <;> simp [he, hn]

theorem length_eq_of_matchLevels {filterLevels names : List String}
    (hb : filterLevels.getLast? ≠ some "#")
    (hm : matchLevels filterLevels names = true) : filterLevels.length = names.length := by
  induction filterLevels generalizing names with
  | nil =>
    obtain rfl : names = [] := by simpa [matchLevels] using hm
    rfl
  | cons level rest ih =>
    have hd : rest.getLast? ≠ some "#" := by
      intro hl
      cases rest with
      | nil => cases hl
      | cons second rest => exact hb (by simpa using hl)
    simp only [matchLevels] at hm
    split at hm
    · case isTrue hash =>
        obtain rfl : rest = [] := by simpa using hm
        exact absurd (by simp [hash]) hb
    · cases names with
      | nil => cases hm
      | cons name names =>
        have tail : matchLevels rest names = true := by
          simp only [Bool.and_eq_true] at hm
          exact hm.2
        rw [length_cons, length_cons, ih hd tail]

/-- The hash key in front does not change whether the filter matches: the filter matches
neither name, or it ends in `#` and matches both. -/
def KeepsMatch (filter topic : String) : Prop :=
  (matchesKey filter topic = false ∧ matchTopicFilter filter topic = false) ∨
    ((splitTopicLevels filter).getLast? = some "#" ∧ matchesKey filter topic = true ∧
      matchTopicFilter filter topic = true)

theorem keepsMatch_iff {filter topic : String} :
    KeepsMatch filter topic ↔ matchesKey filter topic = matchTopicFilter filter topic := by
  constructor
  · rintro (⟨hne, neither'⟩ | ⟨-, hb, both'⟩)
    · rw [hne, neither']
    · rw [hb, both']
  · intro he
    cases hd : matchTopicFilter filter topic with
    | false => exact .inl ⟨he.trans hd, hd⟩
    | true =>
      refine .inr ⟨?_, he.trans hd, hd⟩
      by_contra bound
      have hk : matchLevels (splitTopicLevels filter) (keyLevels topic) = true := by
        have hm := he.trans hd
        simp only [matchesKey, Bool.and_eq_true] at hm
        exact hm.2
      have hn : topic ≠ "" := by
        rintro rfl
        simp [matchTopicFilter] at hd
      have hp : matchLevels (splitTopicLevels filter) (levelsOf topic.toList) = true := by
        rw [matchTopicFilter, splitTopicLevels_of_ne hn] at hd
        grind
      have hl := length_eq_of_matchLevels bound hk
      have hs := length_eq_of_matchLevels bound hp
      have first : 0 < (levelsOf topic.toList).length := length_pos_iff.mpr (levelsOf_ne_nil _)
      simp only [keyLevels, length_cons, length_tail] at hl
      omega

/-! ## Badger -/

section Badger

variable {Data : Type v} (codec : MessageCodec Data)

def ReturnsMatching (calls : List RetainCall) (filter : String) (now : Int) : Prop :=
  let found := (getRetainMessagesByTopicFilter (badgerHash Data) codec
    (stored (badgerHash Data) codec calls) filter now).1
  found.Nodup ∧ ∀ message, message ∈ found ↔
    latest calls message.topic = some message ∧ isExpired message now = false ∧
      matchTopicFilter filter message.topic = true

def CollectsExpired (calls : List RetainCall) (now : Int) : Prop :=
  ∀ topic, held (badgerHash Data) codec
    (runGCOnce (badgerHash Data) codec (stored (badgerHash Data) codec calls) now).2 topic =
      (latest calls topic).filter fun message => !isExpired message now

theorem returnsMatching_iff {calls : List RetainCall} {filter : String} {now : Int} :
    ReturnsMatching codec calls filter now ↔
      ∀ topic msg, latest calls topic = some msg → isExpired msg now = false →
        KeepsMatch filter topic := by
  have lawful := badgerHash_lawful Data getTopicRetainKey
  simp only [ReturnsMatching, mem_getRetainMessagesByTopicFilter codec lawful,
    matchTopicFilter_key, keepsMatch_iff]
  constructor
  · rintro ⟨-, he⟩ topic msg hk hf
    have hh := he msg
    rw [topic_of_latest hk] at hh
    rw [Bool.eq_iff_iff]
    constructor
    · intro keyed
      exact (hh.mp ⟨topic, hk, hf, keyed⟩).2.2
    · intro hm
      obtain ⟨o, stay, -, keyed⟩ := hh.mpr ⟨hk, hf, hm⟩
      rwa [← topic_of_latest hk, topic_of_latest stay]
  · intro keeps
    refine ⟨nodup_getRetainMessagesByTopicFilter codec lawful calls filter now, fun msg => ?_⟩
    constructor
    · rintro ⟨topic, hk, hf, keyed⟩
      rw [topic_of_latest hk, ← keeps topic msg hk hf]
      exact ⟨hk, hf, keyed⟩
    · rintro ⟨hk, hf, hm⟩
      exact ⟨msg.topic, hk, hf, (keeps _ _ hk hf).trans hm⟩

/-- An expired message is deleted under a longer topic, so the shortest one stays. -/
theorem collectsExpired_iff {calls : List RetainCall} {now : Int} :
    CollectsExpired codec calls now ↔
      ∀ topic msg, latest calls topic = some msg → isExpired msg now = false := by
  have lawful := badgerHash_lawful Data getTopicRetainKey
  simp only [CollectsExpired, held_runGCOnce codec lawful]
  constructor
  · intro hc
    have none : ∀ size, ∀ topic msg, topic.toList.length = size →
        latest calls topic = some msg → isExpired msg now = false := by
      intro size
      induction size using Nat.strong_induction_on with
      | _ size hs =>
        intro topic msg hl hk
        by_contra he
        have hr := hc topic
        rw [hk, Option.filter_some_neg (by simpa using he)] at hr
        split at hr
        · case isTrue hd =>
            obtain ⟨inner, o, stay, gone, rfl⟩ := (mem_expiredTopics codec lawful).mp hd
            have smaller : inner.toList.length < size := by
              rw [← hl, String.toList_append, length_append]
              exact Nat.lt_add_of_pos_left (by decide)
            rw [hs _ smaller inner o rfl stay] at gone
            cases gone
        · cases hr
    exact fun topic msg => none _ topic msg rfl
  · intro hf topic
    have hk : topic ∉ expiredTopics (badgerHash Data) codec
        (stored (badgerHash Data) codec calls) now := by
      intro hd
      obtain ⟨inner, msg, hk, he, -⟩ := (mem_expiredTopics codec lawful).mp hd
      rw [hf inner msg hk] at he
      cases he
    rw [if_neg hk]
    cases hh : latest calls topic with
    | none => rfl
    | some msg => rw [Option.filter_some_pos (by simp [hf topic msg hh])]

theorem badger_retained_iff (calls : List RetainCall) (filter : String) (now : Int) :
    (ReturnsMatching codec calls filter now ∧ CollectsExpired codec calls now) ↔
      ∀ topic message, latest calls topic = some message →
        isExpired message now = false ∧ KeepsMatch filter topic := by
  rw [returnsMatching_iff, collectsExpired_iff]
  constructor
  · rintro ⟨hm, hf⟩ topic message hk
    exact ⟨hf topic message hk, hm topic message hk (hf topic message hk)⟩
  · intro hh
    exact ⟨fun topic message hk _ => (hh topic message hk).2,
      fun topic message hk => (hh topic message hk).1⟩

end Badger

def plainCodec : MessageCodec RetainMessage := ⟨id, some, fun _ => rfl⟩

/-- The filter `a/+` does not return the retained message of `a/b`, and an expired message
survives the collection. -/
theorem badger_retained_missed : ¬ ReturnsMatching plainCodec [.put { topic := "a/b" }] "a/+" 0 ∧
      ¬ CollectsExpired plainCodec [.put { topic := "a/b", expiredAtUnixNano := 1 }] 1 := by
  rw [returnsMatching_iff, collectsExpired_iff]
  constructor
  · intro keeps
    have hk := keepsMatch_iff.mp (keeps "a/b" { topic := "a/b" } (by decide) (by decide))
    revert hk
    decide
  · intro hf
    have hs := hf "a/b" { topic := "a/b", expiredAtUnixNano := 1 } (by decide)
    revert hs
    decide

end SkyTree.Retain
