import SkyTree.Foundation.Transition
import SkyTree.Retain.Listing

/-!
# Expiry decided on an earlier read

The collection and the readers decide that a message has expired on a copy they read
earlier, and then delete whatever is stored under its topic. Jobs run side by side
with puts and with the passing of time, one store operation or one clock reading at a
time. A put is harmful in two places only: between the read and the decision, when the
copy it replaces is found expired, and between the decision and the deletion.
-/

namespace SkyTree.Retain

open Foundation Subscription Mqtt List

universe u v w

inductive Purpose where
  | collection
  | wildcardRead (filter : String)

def Purpose.deletes {Data : Type v} (codec : MessageCodec Data) (now : Int) :
    Purpose → String × Data → Bool
  | .collection => collected codec now
  | .wildcardRead filter => lazilyDeleted codec filter now

/-- How far a job has come: `listed` and `read` hold what the store returned, `serving` what
`GetRetainMessage` returned to the subscriber's handler. -/
inductive JobPhase (Data : Type v) where
  | idle
  | listed (purpose : Purpose) (all : List (String × Data))
  | read (message : RetainMessage)
  | serving (message : RetainMessage)
  | deleting (topics : List String)

structure RetainState (Store : Type u) (Data : Type v) (Job : Type w) where
  store : Store
  now : Int
  phases : Job → JobPhase Data
  removed : List (RetainMessage × Int)

inductive RetainLabel (Job : Type w) where
  | put (message : RetainMessage)
  | tick (elapsed : Nat)
  | list (job : Job) (purpose : Purpose)
  | get (job : Job) (topic : String)
  | check (job : Job)
  | delete (job : Job)

section Jobs

variable {Store : Type u} {Data : Type v} {Job : Type w} [DecidableEq Job]
variable (hash : HashStore Store Data) (codec : MessageCodec Data)

namespace RetainState

variable (s : RetainState Store Data Job)

def setPhase (job : Job) (phase : JobPhase Data) :
    RetainState Store Data Job :=
  { s with phases := Function.update s.phases job phase }

/-- What a copy of one topic leads to: `HGet`, then the decoding. -/
def fetched (topic : String) : JobPhase Data :=
  match held hash codec s.store topic with
  | none => .idle
  | some message => .read message

def judged : JobPhase Data → Option (JobPhase Data)
  | .idle => none
  | .listed purpose all =>
    some (.deleting ((all.filter (purpose.deletes codec s.now)).map Prod.fst))
  | .read message =>
    some (if isExpired message s.now then .deleting [message.topic] else .serving message)
  | .serving message =>
    match publishFromRetainMessage message s.now with
    | some _ => some .idle
    | none => some (if message.topic = "" then .idle else .deleting [message.topic])
  | .deleting _ => none

/-- The messages that a deletion takes away, with the time of the deletion. -/
def taken (topics : List String) : List (RetainMessage × Int) :=
  topics.filterMap fun topic => (held hash codec s.store topic).map fun message => (message, s.now)

def advance :
    RetainLabel Job → Option (RetainState Store Data Job)
  | .put message => some { s with store := putRetainMessage hash codec s.store message }
  | .tick elapsed => some { s with now := s.now + elapsed }
  | .list job purpose =>
    match s.phases job with
    | .idle => some (s.setPhase job (.listed purpose (hash.hGetAll s.store getTopicRetainKey)))
    | _ => none
  | .get job topic =>
    match s.phases job with
    | .idle => some (s.setPhase job (s.fetched hash codec topic))
    | _ => none
  | .check job => (s.judged codec (s.phases job)).map (s.setPhase job)
  | .delete job =>
    match s.phases job with
    | .deleting topics => some
        { s.setPhase job .idle with
          store := hash.hDel s.store getTopicRetainKey topics
          removed := s.removed ++ s.taken hash codec topics }
    | _ => none

end RetainState

def retainJobs : System (RetainState Store Data Job) (RetainLabel Job) where
  step s label := s.advance hash codec label

def RetainState.initial (now : Int) : RetainState Store Data Job where
  store := hash.empty
  now := now
  phases _ := .idle
  removed := []

/-! ## The condition -/

def Servable (message : RetainMessage) : Prop :=
  ∃ publish, decodedPublish message = some publish ∧
    (publish.properties.messageExpiry ≠ none → 0 < message.expiredAtUnixNano)

/-- Whatever is stored under the name is the copy, or has expired as well. -/
def Unreplaced (store : Store) (now : Int) (name : String) (copy : RetainMessage) : Prop :=
  ∀ message, held hash codec store name = some message →
    message = copy ∨ isExpired message now = true

/-- The copies on which a job decides, each under the name it would delete. -/
def JobPhase.copies : JobPhase Data → List (String × RetainMessage)
  | .listed _ all => all.filterMap fun entry =>
      (codec.unmarshal entry.2).map fun message => (entry.1, message)
  | .read message => [(message.topic, message)]
  | .serving message => [(message.topic, message)]
  | _ => []

/-- A message that is put is servable and, unless it has expired already, in no list of
decided deletions; and when a job decides, no expired copy of its has been replaced. -/
def Careful (s : RetainState Store Data Job) : RetainLabel Job → Prop
  | .put message => Servable message ∧ (isExpired message s.now = true ∨
      ∀ job topics, s.phases job = .deleting topics → message.topic ∉ topics)
  | .check job => ∀ name copy, (name, copy) ∈ (s.phases job).copies codec →
      isExpired copy s.now = true → Unreplaced hash codec s.store s.now name copy
  | _ => True

/-! ## What the jobs may delete -/

variable {now : Int}

theorem expired_of_unavailable {message : RetainMessage} (named : message.topic ≠ "")
    (servable : Servable message) (unavailable : publishFromRetainMessage message now = none) :
    isExpired message now = true := by
  obtain ⟨publish, decoded, deadline⟩ := servable
  simp only [publishFromRetainMessage, if_neg named, decoded, applyRetainedMessageExpiry]
    at unavailable
  cases interval : publish.properties.messageExpiry with
  | none => simp [interval] at unavailable
  | some seconds =>
    have positive := deadline (by simp [interval])
    simp only [interval, if_neg (not_le.mpr positive)] at unavailable
    split at unavailable
    · case isTrue passed => exact isExpired_iff.mpr ⟨positive, passed⟩
    · cases unavailable

def Deletable (store : Store) (now : Int) (name : String) : Prop :=
  ∀ message, held hash codec store name = some message → isExpired message now = true

theorem Unreplaced.deletable {store : Store} {name : String} {copy : RetainMessage}
    (unreplaced : Unreplaced hash codec store now name copy)
    (expired : isExpired copy now = true) : Deletable hash codec store now name := by
  intro message found
  rcases unreplaced message found with rfl | already
  · exact expired
  · exact already

def JobPhase.Sound (store : Store) (now : Int) : JobPhase Data → Prop
  | .idle => True
  | .listed _ all => ∀ entry ∈ all, (codec.unmarshal entry.2).isSome = true
  | .read copy => Servable copy
  | .serving copy => Servable copy
  | .deleting topics => ∀ topic ∈ topics, Deletable hash codec store now topic

/-- Messages lie under their own topics and are servable, every phase is sound, and only
expired messages were removed. -/
structure Guarded (s : RetainState Store Data Job) : Prop where
  stored : ∀ topic data, hash.hGet s.store getTopicRetainKey topic = some data →
    ∃ message, codec.unmarshal data = some message ∧ message.topic = topic ∧ Servable message
  sound : ∀ job, (s.phases job).Sound hash codec s.store s.now
  removed : ∀ entry ∈ s.removed, isExpired entry.1 entry.2 = true

variable {hash codec} {listed : String → String} {s : RetainState Store Data Job}

theorem JobPhase.Sound.mono {store next : Store} {phase : JobPhase Data} {later : Int}
    (passed : now ≤ later)
    (kept : ∀ topics topic message, phase = .deleting topics → topic ∈ topics →
      held hash codec next topic = some message →
      held hash codec store topic = some message ∨ isExpired message later = true)
    (sound : phase.Sound hash codec store now) : phase.Sound hash codec next later := by
  cases phase with
  | deleting topics =>
    intro topic member message found
    rcases kept topics topic message rfl member found with before | expired
    · obtain ⟨positive, expired⟩ := isExpired_iff.mp (sound topic member message before)
      exact isExpired_iff.mpr ⟨positive, expired.trans passed⟩
    · exact expired
  | _ => exact sound

omit [DecidableEq Job] in
theorem Guarded.of_held (guarded : Guarded hash codec s) {topic : String}
    {message : RetainMessage} (found : held hash codec s.store topic = some message) :
    Servable message := by
  obtain ⟨data, stored, decoded⟩ := Option.bind_eq_some_iff.mp found
  obtain ⟨same, again, -, servable⟩ := guarded.stored topic data stored
  obtain rfl := Option.some.inj (again.symm.trans decoded)
  exact servable

theorem Guarded.setPhase (guarded : Guarded hash codec s) {job : Job} {phase : JobPhase Data}
    (sound : phase.Sound hash codec s.store s.now) :
    Guarded hash codec (s.setPhase job phase) := by
  refine ⟨guarded.stored, fun other => ?_, guarded.removed⟩
  show (Function.update s.phases job phase other).Sound hash codec s.store s.now
  by_cases same : other = job
  · subst same
    rwa [Function.update_self]
  · rw [Function.update_of_ne same]
    exact guarded.sound other

section Steps

variable (lawful : hash.Lawful getTopicRetainKey listed)

include lawful

theorem held_of_held_hDel {store : Store} {topics : List String} {topic : String}
    {message : RetainMessage}
    (hf : held hash codec (hash.hDel store getTopicRetainKey topics) topic = some message) :
    held hash codec store topic = some message := by
  by_cases hd : topic ∈ topics
  · rw [held, lawful.hGet_hDel_of_mem _ hd] at hf
    cases hf
  · rwa [held, lawful.hGet_hDel_of_not_mem _ hd] at hf

omit [DecidableEq Job] in
theorem Guarded.put (guarded : Guarded hash codec s) {message : RetainMessage}
    (careful : Careful hash codec s (.put message)) :
    Guarded hash codec { s with store := putRetainMessage hash codec s.store message } := by
  refine ⟨fun topic data found => ?_, fun job => ?_, guarded.removed⟩
  · by_cases same : topic = message.topic
    · subst same
      rw [putRetainMessage, lawful.hGet_hSet_self] at found
      cases found
      exact ⟨message, codec.unmarshal_marshal message, rfl, careful.1⟩
    · rw [putRetainMessage, lawful.hGet_hSet_of_ne _ _ same] at found
      exact guarded.stored topic data found
  · refine (guarded.sound job).mono le_rfl fun topics topic other deleting member found => ?_
    by_cases same : topic = message.topic
    · subst same
      rw [held, putRetainMessage, lawful.hGet_hSet_self] at found
      cases (codec.unmarshal_marshal message).symm.trans found
      exact .inr (careful.2.resolve_right fun free => free job topics deleting member)
    · rw [held, putRetainMessage, lawful.hGet_hSet_of_ne _ _ same] at found
      exact .inl found

theorem Guarded.delete (guarded : Guarded hash codec s) {job : Job} {topics : List String}
    (deleting : s.phases job = .deleting topics) :
    Guarded hash codec { s.setPhase job .idle with
        store := hash.hDel s.store getTopicRetainKey topics
        removed := s.removed ++ s.taken hash codec topics } := by
  have idle : Guarded hash codec (s.setPhase job .idle) := guarded.setPhase trivial
  refine ⟨fun topic data found => ?_, fun other => ?_, fun entry member => ?_⟩
  · by_cases deleted : topic ∈ topics
    · rw [lawful.hGet_hDel_of_mem _ deleted] at found
      cases found
    · rw [lawful.hGet_hDel_of_not_mem _ deleted] at found
      exact guarded.stored topic data found
  · exact (idle.sound other).mono le_rfl fun _ _ _ _ _ found =>
      .inl (held_of_held_hDel lawful found)
  · rcases mem_append.mp member with before | taken
    · exact guarded.removed entry before
    · obtain ⟨topic, listed, found⟩ := mem_filterMap.mp taken
      obtain ⟨message, stored, rfl⟩ := Option.map_eq_some_iff.mp found
      have sound : (JobPhase.deleting topics).Sound hash codec s.store s.now :=
        deleting ▸ guarded.sound job
      exact sound topic listed message stored

theorem Guarded.list (guarded : Guarded hash codec s) {job : Job} {purpose : Purpose} :
    Guarded hash codec
      (s.setPhase job (.listed purpose (hash.hGetAll s.store getTopicRetainKey))) := by
  refine guarded.setPhase fun ⟨name, data⟩ member => ?_
  obtain ⟨topic, rfl, stored⟩ := (lawful.mem_hGetAll _ _ _).mp member
  obtain ⟨copy, decoded, -⟩ := guarded.stored topic data stored
  rw [decoded]
  rfl

end Steps

theorem Guarded.get (guarded : Guarded hash codec s) {job : Job} {topic : String} :
    Guarded hash codec (s.setPhase job (s.fetched hash codec topic)) := by
  refine guarded.setPhase ?_
  cases found : held hash codec s.store topic with
  | none =>
    simp only [RetainState.fetched, found]
    trivial
  | some copy =>
    simp only [RetainState.fetched, found]
    exact guarded.of_held found

theorem expired_of_deletes {purpose : Purpose} {entry : String × Data} {copy : RetainMessage}
    (decoded : codec.unmarshal entry.2 = some copy)
    (deletes : purpose.deletes codec now entry = true) : isExpired copy now = true := by
  cases purpose with
  | collection => simpa [Purpose.deletes, collected, decoded] using deletes
  | wildcardRead filter =>
    simp only [Purpose.deletes, lazilyDeleted, decoded, Bool.and_eq_true] at deletes
    exact deletes.2

theorem Guarded.check (guarded : Guarded hash codec s) {job : Job} {phase : JobPhase Data}
    (careful : Careful hash codec s (.check job))
    (judged : s.judged codec (s.phases job) = some phase) :
    Guarded hash codec (s.setPhase job phase) := by
  refine guarded.setPhase ?_
  have sound := guarded.sound job
  simp only [Careful] at careful
  have deletes (copy : RetainMessage) (held : (copy.topic, copy) ∈ (s.phases job).copies codec)
      (expired : isExpired copy s.now = true) :
      (JobPhase.deleting [copy.topic]).Sound hash codec s.store s.now := by
    intro topic member
    obtain rfl := mem_singleton.mp member
    exact (careful _ copy held expired).deletable hash codec expired
  cases current : s.phases job with
  | idle | deleting topics => simp [current, RetainState.judged] at judged
  | listed purpose all =>
    rw [current] at sound judged careful
    cases judged
    intro topic member
    obtain ⟨entry, kept, rfl⟩ := mem_map.mp member
    obtain ⟨listed, deleted⟩ := mem_filter.mp kept
    obtain ⟨copy, decoded⟩ := Option.isSome_iff_exists.mp (sound entry listed)
    have expired := expired_of_deletes decoded deleted
    refine (careful entry.1 copy (mem_filterMap.mpr ⟨entry, listed, ?_⟩) expired).deletable
      hash codec expired
    rw [decoded]
    rfl
  | read copy =>
    rw [current] at sound judged deletes
    cases judged
    split
    · case isTrue expired => exact deletes copy mem_cons_self expired
    · exact sound
  | serving copy =>
    rw [current] at sound judged deletes
    simp only [RetainState.judged] at judged
    split at judged
    · cases judged
      trivial
    · case h_2 unavailable =>
        cases judged
        split
        · trivial
        · case isFalse named =>
            exact deletes copy mem_cons_self (expired_of_unavailable named sound unavailable)

theorem Guarded.advance (lawful : hash.Lawful getTopicRetainKey listed)
    {s next : RetainState Store Data Job} {label : RetainLabel Job}
    (guarded : Guarded hash codec s) (careful : Careful hash codec s label)
    (taken : s.advance hash codec label = some next) : Guarded hash codec next := by
  cases label with
  | put message =>
    cases taken
    exact guarded.put lawful careful
  | tick elapsed =>
    cases taken
    have later : s.now ≤ s.now + elapsed := by omega
    refine ⟨guarded.stored, fun job => ?_, guarded.removed⟩
    exact (guarded.sound job).mono later fun _ _ _ _ _ found => .inl found
  | list job purpose =>
    simp only [RetainState.advance] at taken
    split at taken
    · cases taken
      exact guarded.list lawful
    · cases taken
  | get job topic =>
    simp only [RetainState.advance] at taken
    split at taken
    · cases taken
      exact guarded.get
    · cases taken
  | check job =>
    obtain ⟨phase, judged, rfl⟩ := Option.map_eq_some_iff.mp taken
    exact guarded.check careful judged
  | delete job =>
    simp only [RetainState.advance] at taken
    split at taken
    · case h_1 topics phase =>
        cases taken
        exact guarded.delete lawful phase
    · cases taken

/-- In a run of careful puts and decisions the jobs remove expired messages only. -/
theorem unexpired_never_removed (lawful : hash.Lawful getTopicRetainKey listed) {now : Int}
    {s : RetainState Store Data Job}
    (reached : (retainJobs hash codec).Reached (Careful hash codec)
      (RetainState.initial hash now) s) :
    ∀ entry ∈ s.removed, isExpired entry.1 entry.2 = true := by
  have guarded : Guarded hash codec s := by
    refine reached.invariant ?_ fun before label after guarded careful taken =>
      guarded.advance lawful careful taken
    refine ⟨fun topic data found => ?_, fun _ => trivial, fun _ none => by cases none⟩
    rw [RetainState.initial, lawful.hGet_empty] at found
    cases found
  exact guarded.removed

end Jobs

/-- Between the listing and the decision "u" is replaced, which has a deadline but has not
expired; between the decision and the deletion "v" is put. -/
def interleavedPuts : List (RetainLabel Unit) :=
  [.put { topic := "t", expiredAtUnixNano := 10 }, .put { topic := "u", expiredAtUnixNano := 90 },
    .tick 20, .list () .collection, .put { topic := "u" }, .check (), .put { topic := "v" },
    .delete ()]

theorem unexpired_never_removed_interleaved :
    ∃ s : RetainState (Redis RetainMessage) RetainMessage Unit,
      (retainJobs (redisHash RetainMessage) plainCodec).run
        (RetainState.initial (redisHash RetainMessage) 0) interleavedPuts = some s ∧
      s.removed.map (fun entry => entry.1.topic) = ["t"] ∧
      ∀ entry ∈ s.removed, isExpired entry.1 entry.2 = true := by
  have evaluated : ∃ s : RetainState (Redis RetainMessage) RetainMessage Unit,
      (retainJobs (redisHash RetainMessage) plainCodec).run
        (RetainState.initial (redisHash RetainMessage) 0) interleavedPuts = some s ∧
      s.removed.map (fun entry => entry.1.topic) = ["t"] := ⟨_, rfl, by decide⟩
  obtain ⟨s, evaluated, removed⟩ := evaluated
  refine ⟨s, evaluated, removed, ?_⟩
  have lawful := redisHash_lawful RetainMessage getTopicRetainKey
  refine unexpired_never_removed lawful (System.reached_of_run evaluated ?_)
  have servable (topic : String) (deadline : Int) :
      Servable { topic := topic, expiredAtUnixNano := deadline } :=
    ⟨_, rfl, fun interval => absurd rfl interval⟩
  refine ⟨⟨servable .., .inr fun _ _ idle => nomatch idle⟩,
    ⟨servable .., .inr fun _ _ idle => nomatch idle⟩, trivial, trivial,
    ⟨servable .., .inr fun _ _ listed => nomatch listed⟩, ?_, ⟨servable .., .inr ?_⟩, trivial,
    trivial⟩
  · intro name copy member expired message found
    change (name, copy) ∈ [("t", { topic := "t", expiredAtUnixNano := 10 }),
      ("u", { topic := "u", expiredAtUnixNano := 90 })] at member
    rcases mem_cons.mp member with same | member
    · cases same
      exact .inl (Option.some.inj found).symm
    · cases mem_singleton.mp member
      exact absurd expired (by decide)
  · intro job topics deleting
    cases deleting
    decide

/-- A message put between the decision and the deletion is removed although it never
expires. -/
theorem unexpired_removed : ∃ s : RetainState (Redis RetainMessage) RetainMessage Unit,
      (retainJobs (redisHash RetainMessage) plainCodec).run
        (RetainState.initial (redisHash RetainMessage) 0)
        [.put { topic := "t", expiredAtUnixNano := 10 }, .tick 20, .list () .collection,
          .check (), .put { topic := "t" }, .delete ()] = some s ∧
      ∃ entry ∈ s.removed, isExpired entry.1 entry.2 = false := by
  refine ⟨_, rfl, ({ topic := "t" }, 20), ?_, ?_⟩
  · decide
  · decide

end SkyTree.Retain
