import SkyTree.Client.Subscribe
import SkyTree.Delivery.FilterGrammar

/-!
# Reason codes and stored subscriptions

A SUBACK answers every filter of its packet, and the codes agree with what the subscription
center holds afterwards. The filters a precheck lets pass are accepted by the center too, so
a code depends on the filter and on whether the connection still owns the client.
-/

namespace SkyTree.Subscription

open Foundation KeyedTable

namespace MemorySubCenter

variable {center : MemorySubCenter} {cid other : ClientID} {opt : SubOption}
  {topic : String}

def subscription (center : MemorySubCenter) (clientID : ClientID) (topic : String) :
    Option SubOption :=
  (center.subscriptions clientID (shardKeyFromTopic topic)).get topic

theorem subscription_storeSub : (center.storeSub cid opt).subscription other topic =
      if other = cid ∧ topic = opt.topic then some opt
      else center.subscription other topic := by
  unfold subscription subscriptions storeSub
  dsimp only
  by_cases hs : shardKeyFromTopic topic = shardKeyFromTopic opt.topic
  · rw [hs, topicsIn_set_self]
    by_cases hc : other = cid
    · subst hc
      rw [SubCore.topicsOf_store_self]
      by_cases he : topic = opt.topic
      · rw [he, if_pos ⟨rfl, rfl⟩]
        exact get_put_self
      · rw [if_neg (fun hb => he hb.2)]
        exact get_put_of_ne he
    · rw [SubCore.topicsOf_store_of_ne _ _ hc, if_neg (fun hb => hc hb.1)]
      rfl
  · rw [topicsIn_set_of_ne _ _ hs, if_neg (fun hb => hs (congrArg _ hb.2))]

@[simp] theorem subscription_setOwnerToken (token : OwnerToken) :
    (center.setOwnerToken cid token).subscription other topic =
      center.subscription other topic := by
  unfold setOwnerToken
  split <;> rfl

def Admits (center : MemorySubCenter) (clientID : ClientID) (ownerToken : OwnerToken) : Prop :=
  ¬(ownerToken ≠ "" ∧ center.getOwnerToken clientID ≠ "" ∧
    center.getOwnerToken clientID ≠ ownerToken)

instance (ownerToken : OwnerToken) : Decidable (center.Admits cid ownerToken) :=
  inferInstanceAs (Decidable (¬_))

theorem createSub_of_fenced {tok : OwnerToken} (hf : ¬center.Admits cid tok) (hn : opt.topic ≠ "") :
    center.createSub cid tok [opt] = (center, [(opt.topic, -1)]) := by
  rw [createSub, if_pos (not_not.mp hf)]
  simp [hn]

theorem createSub_of_admitted {tok : OwnerToken} (ha : center.Admits cid tok)
    (hv : validateTopicFilter opt.topic = .ok ()) :
    ∃ next, center.createSub cid tok [opt] = (next, [(opt.topic, opt.qos)]) ∧
      next.Admits cid tok ∧ ∀ topic, next.subscription cid topic =
        if topic = opt.topic then some opt else center.subscription cid topic := by
  rw [createSub, if_neg ha]
  simp only [List.foldl_cons, List.foldl_nil, createOne, hv, List.nil_append]
  refine ⟨_, rfl, ?_, ?_⟩
  · change ¬(_ ∧ getOwnerToken _ cid ≠ "" ∧ getOwnerToken _ cid ≠ tok)
    split
    · rename_i binds
      rintro ⟨-, bound, hne⟩
      by_cases hn : cid = ""
      · simp [getOwnerToken, hn] at bound
      · simp [getOwnerToken, hn, storeSub, setOwnerToken] at hne
    · exact ha
  · intro topic
    rw [subscription_storeSub]
    by_cases he : topic = opt.topic
    · rw [if_pos ⟨rfl, he⟩, if_pos he]
    · rw [if_neg (fun hb => he hb.2), if_neg he]
      split
      · exact subscription_setOwnerToken tok
      · rfl

theorem subscription_of_deleteSub {next : MemorySubCenter}
    (shards : next.shards = Assoc.set center.shards (shardKeyFromTopic topic)
      ((center.shardOf (shardKeyFromTopic topic)).deleteSub cid topic)) (filter : String) :
    next.subscription cid filter =
      if filter = topic then none else center.subscription cid filter := by
  unfold subscription subscriptions
  rw [shards]
  by_cases he : filter = topic
  · subst he
    rw [if_pos rfl, topicsIn_set_self]
    refine get_eq_none_iff.mpr fun opt hm hk => ?_
    exact ((center.shardOf _).mem_topicsOf_deleteSub.mp hm).2 ⟨rfl, hk⟩
  · rw [if_neg he]
    by_cases hs : shardKeyFromTopic filter = shardKeyFromTopic topic
    · rw [hs, topicsIn_set_self]
      apply Option.ext
      intro opt
      rw [get_eq_some_iff, get_eq_some_iff, SubCore.mem_topicsOf_deleteSub]
      constructor
      · rintro ⟨⟨hm, -⟩, hk⟩
        exact ⟨hm, hk⟩
      · rintro ⟨hm, hk⟩
        exact ⟨⟨hm, fun hb => he (hk.symm.trans hb.2)⟩, hk⟩
    · rw [topicsIn_set_of_ne _ _ hs]

theorem subscription_deleteOne (filter : String) :
    (center.deleteOne cid topic).1.subscription cid filter =
      if filter = topic then none else center.subscription cid filter := by
  unfold deleteOne
  split
  · rename_i missing
    by_cases he : filter = topic
    · rw [if_pos he, he, subscription, subscriptions, topicsIn, missing]
      rfl
    · rw [if_neg he]
  · split
    · exact subscription_of_deleteSub rfl filter
    · exact subscription_of_deleteSub rfl filter

theorem deleteOne_code : (center.deleteOne cid topic).2 =
      if (center.subscription cid topic).isSome then 0 else 0x11 := by
  unfold deleteOne
  split
  · rename_i hm
    rw [subscription, subscriptions, topicsIn, hm]
    rfl
  · split
    · rename_i hf
      have hs : center.subscription cid topic = some _ := hf
      rw [hs]
      rfl
    · rename_i absent
      have hm : center.subscription cid topic = none := absent
      rw [hm]
      rfl

end MemorySubCenter

end SkyTree.Subscription

namespace SkyTree.Client

open Foundation Session Subscription Delivery.Router

/-! ## Filters -/

theorem validateTopicFilter_of_wellFormed {filter : String}
    (hv : invalidSubscribeTopicFilter filter = false) :
    filter ≠ "" ∧ validateTopicFilter filter = .ok () := by
  have ha : validateTopicFilterSyntax filter = .ok () := by
    unfold invalidSubscribeTopicFilter at hv
    split at hv
    · assumption
    · cases hv
  exact ⟨ne_empty_of_validateTopicFilterSyntax ha, validateTopicFilter_of_syntax ha⟩

/-! ## SUBACK -/

theorem mapM_eq_map {α β ε : Type} {check : α → Except ε β} {code : α → β}
    (codes : ∀ e answer, check e = .ok answer → answer = code e) {entries : List α}
    {answers : List β} (hc : entries.mapM check = .ok answers) :
    answers = entries.map code := by
  induction entries generalizing answers with
  | nil =>
    cases hc
    rfl
  | cons e rest ih =>
    rw [List.mapM_cons] at hc
    cases hh : check e with
    | error _ =>
      rw [hh] at hc
      cases hc
    | ok answer =>
      rw [hh] at hc
      cases ht : rest.mapM check with
      | error _ =>
        rw [ht] at hc
        cases hc
      | ok later =>
        rw [ht] at hc
        cases hc
        rw [List.map_cons, ← codes _ _ hh, ← ih ht]

theorem rejectedReasons_of_precheck {prop : ConnectAckProperty} {packet : SubscribePacket}
    {rejected : List Nat} (hp : precheckSubscribe prop packet = .ok rejected) :
    rejected = packet.subscriptions.map rejectedReason := by
  have hv : applySubscribeTopicValidation packet = .ok rejected := by
    unfold precheckSubscribe at hp
    cases ht : applySubscribeTopicValidation packet with
    | error _ =>
      rw [ht] at hp
      cases hp
    | ok reasons =>
      rw [ht] at hp
      cases hi : validateSubscriptionIdentifier packet with
      | error _ =>
        simp [hi, bind, Except.bind] at hp
      | ok _ =>
        cases caps : applySubscribeCapabilities prop packet reasons with
        | error _ => simp [hi, caps, bind, Except.bind] at hp
        | ok _ =>
          simp only [hi, caps, bind, Except.bind, pure, Except.pure, Except.ok.injEq] at hp
          rw [hp]
  refine mapM_eq_map (fun sub reason hc => ?_) hv
  unfold rejectedReason
  split at hc
  · rename_i invalid
    cases hc
    rw [if_pos invalid]
  · rename_i valid
    split_ifs at hc
    cases hc
    rw [if_neg valid]

theorem filteredSubscriptions_eq (packet : SubscribePacket) :
    filteredSubscriptions packet (packet.subscriptions.map rejectedReason) =
      packet.subscriptions.filter fun sub => !invalidSubscribeTopicFilter sub.topic := by
  rw [filteredSubscriptions]
  induction packet.subscriptions with
  | nil => rfl
  | cons sub rest ih =>
    cases hv : invalidSubscribeTopicFilter sub.topic <;> simp [rejectedReason, hv] at ih ⊢ <;>
      exact ih

/-- What a list of entries leaves at a filter: the option of its last occurrence. -/
def storedBy (toOption : SubOptions → SubOption) (subs : List SubOptions) (topic : String)
    (prior : Option SubOption) : Option SubOption :=
  subs.foldl (fun stored sub => if topic = sub.topic then some (toOption sub) else stored) prior

variable {toOption : SubOptions → SubOption}

theorem storedBy_of_absent {subs : List SubOptions} {topic : String} {prior : Option SubOption}
    (ha : ∀ sub ∈ subs, sub.topic ≠ topic) :
    storedBy toOption subs topic prior = prior := by
  induction subs generalizing prior with
  | nil => rfl
  | cons sub rest ih =>
    have hne : topic ≠ sub.topic := (ha sub List.mem_cons_self).symm
    rw [storedBy, List.foldl_cons, if_neg hne]
    exact ih fun later hm => ha later (List.mem_cons_of_mem _ hm)

section Loop

variable {writer : Writer} {toOption : SubOptions → SubOption} {subs : List SubOptions}
  {center : MemorySubCenter}

theorem createSubFails_of_valid {opt : SubOption} (hv : validateTopicFilter opt.topic = .ok ()) :
    createSubFails center writer opt = false := by
  rw [createSubFails, hv, Bool.and_false]

theorem subscribeEach_of_admitted (ht : ∀ sub, (toOption sub).topic = sub.topic)
    (hv : ∀ sub ∈ subs, invalidSubscribeTopicFilter sub.topic = false)
    (inside : center.Admits writer.clientID writer.ownerToken) :
    ∃ next, subscribeEach writer toOption subs center =
        .ok (next, subs.map fun sub => (toOption sub).qos) ∧
      ∀ topic, next.subscription writer.clientID topic =
        storedBy toOption subs topic (center.subscription writer.clientID topic) := by
  induction subs generalizing center with
  | nil => exact ⟨center, rfl, fun _ => rfl⟩
  | cons sub rest ih =>
    have ha : validateTopicFilter (toOption sub).topic = .ok () := by
      rw [ht]
      exact (validateTopicFilter_of_wellFormed (hv sub List.mem_cons_self)).2
    obtain ⟨mid, hc, admittedNext, hs⟩ := MemorySubCenter.createSub_of_admitted inside ha
    obtain ⟨next, looped, hl⟩ := ih (fun sub hm => hv sub (List.mem_cons_of_mem _ hm)) admittedNext
    refine ⟨next, ?_, fun topic => ?_⟩
    · rw [subscribeEach, createSubFails_of_valid ha, hc]
      simp [looped, ht]
    · rw [hl, hs, ht]
      rfl

theorem subscribeEach_of_fenced (ht : ∀ sub, (toOption sub).topic = sub.topic)
    (hv : ∀ sub ∈ subs, invalidSubscribeTopicFilter sub.topic = false)
    (hf : ¬center.Admits writer.clientID writer.ownerToken) :
    subscribeEach writer toOption subs center = .ok (center, subs.map fun _ => -1) := by
  induction subs with
  | nil => rfl
  | cons sub rest ih =>
    obtain ⟨hn, ha⟩ := validateTopicFilter_of_wellFormed (hv sub List.mem_cons_self)
    rw [← ht] at hn ha
    have hl := ih fun sub hm => hv sub (List.mem_cons_of_mem _ hm)
    rw [subscribeEach, createSubFails_of_valid ha, MemorySubCenter.createSub_of_fenced hf hn]
    simp [hl, ht]

end Loop

def answerCode (maxQos : Nat) (answer : Int) : Nat :=
  if subscribeAckQoS answer maxQos < 0 then 0x80 else int32ToQoS (subscribeAckQoS answer maxQos)

theorem buildSubAckReasons_codes (maxQos : Nat) (answer : SubOptions → Int)
    (subs : List SubOptions) :
    (buildSubAckReasons maxQos (subs.zip (subs.map rejectedReason))
        ((subs.filter fun sub => !invalidSubscribeTopicFilter sub.topic).map answer)).1 =
      subs.map fun sub =>
        if invalidSubscribeTopicFilter sub.topic then 0x8F else answerCode maxQos (answer sub) := by
  induction subs with
  | nil => rfl
  | cons sub rest ih =>
    cases hv : invalidSubscribeTopicFilter sub.topic with
    | true => simp [buildSubAckReasons, rejectedReason, hv, ih]
    | false =>
      by_cases hn : subscribeAckQoS (answer sub) maxQos < 0 <;>
        simp [buildSubAckReasons, rejectedReason, answerCode, hv, hn, ih]

def subAckCode (maxQos : Nat) (denied admitted : Bool) (sub : SubOptions) : Nat :=
  if denied then 0x87
  else if invalidSubscribeTopicFilter sub.topic then 0x8F
  else if admitted then min sub.qos maxQos
  else 0x80

theorem subAckCode_lt_iff {maxQos : Nat} (hb : maxQos ≤ 2) {denied admitted : Bool}
    {sub : SubOptions} :
    subAckCode maxQos denied admitted sub < 0x80 ↔
      denied = false ∧ invalidSubscribeTopicFilter sub.topic = false ∧ admitted = true := by
  unfold subAckCode
  cases denied <;> cases invalidSubscribeTopicFilter sub.topic <;> cases admitted <;> simp
  omega

theorem answerCode_protoSubOption (prop : ConnectAckProperty) (identifier : Option Nat)
    (sub : SubOptions) :
    answerCode prop.maxQos (protoSubOption prop.maxQos identifier sub).qos =
      min sub.qos prop.maxQos := by
  have hb := prop.bounded
  have hc : (protoSubOption prop.maxQos identifier sub).qos =
      ((min sub.qos prop.maxQos : Nat) : Int) := by
    change ((if prop.maxQos < sub.qos then prop.maxQos else sub.qos : Nat) : Int) = _
    split <;> omega
  have hi : min sub.qos prop.maxQos ≤ prop.maxQos := Nat.min_le_right _ _
  rw [hc, answerCode, subscribeAckQoS]
  generalize min sub.qos prop.maxQos = qos at hi ⊢
  rw [if_neg (by omega), if_neg (by omega), if_neg (by omega), int32ToQoS]
  split
  · omega
  · split <;> omega

theorem handleSub_acknowledged {prop : ConnectAckProperty} {writer : Writer} {denied : Bool}
    {packet : SubscribePacket} {cen next : MemorySubCenter} {reasons : List Nat}
    {granted : List SubOptions}
    (ha : handleSub prop writer denied packet cen = .acknowledged next reasons granted) :
    reasons = packet.subscriptions.map (subAckCode prop.maxQos denied
        (cen.Admits writer.clientID writer.ownerToken)) ∧
      ∀ topic, next.subscription writer.clientID topic =
        if denied = false ∧ cen.Admits writer.clientID writer.ownerToken then
          storedBy (protoSubOption prop.maxQos packet.subscriptionIdentifier)
            (packet.subscriptions.filter fun sub => !invalidSubscribeTopicFilter sub.topic) topic
            (cen.subscription writer.clientID topic)
        else cen.subscription writer.clientID topic := by
  unfold handleSub at ha
  cases denied with
  | true =>
    cases ha
    exact ⟨rfl, fun _ => rfl⟩
  | false =>
    cases hc : precheckSubscribe prop packet with
    | error _ =>
      rw [hc] at ha
      cases ha
    | ok rejected =>
      obtain rfl := rejectedReasons_of_precheck hc
      simp only [hc, filteredSubscriptions_eq, Bool.false_eq_true, if_false] at ha
      have hv : ∀ sub ∈ packet.subscriptions.filter
          (fun sub => !invalidSubscribeTopicFilter sub.topic),
          invalidSubscribeTopicFilter sub.topic = false := by
        intro sub hm
        simpa using List.of_mem_filter hm
      split at ha
      · -- every filter is refused, and the center is not asked
        rename_i all
        cases ha
        have hr : ∀ sub ∈ packet.subscriptions, invalidSubscribeTopicFilter sub.topic = true := by
          simpa using all.2
        refine ⟨List.map_congr_left fun sub hm => ?_, fun topic => ?_⟩
        · simp [rejectedReason, subAckCode, hr sub hm]
        · rw [all.2]
          split <;> rfl
      · unfold routerSubscribe at ha
        cases req : validateClientOwnerRequest writer.clientID writer.ownerToken
            writer.localNodeID with
        | error _ =>
          rw [req] at ha
          cases ha
        | ok _ =>
          rw [req] at ha
          by_cases inside : cen.Admits writer.clientID writer.ownerToken
          · obtain ⟨stored, hl, after⟩ := @subscribeEach_of_admitted _
              (protoSubOption prop.maxQos packet.subscriptionIdentifier) _ _ (fun _ => rfl)
              hv inside
            simp only [hl] at ha
            cases ha
            rw [buildSubAckReasons_codes]
            simp only [answerCode_protoSubOption]
            refine ⟨List.map_congr_left fun sub _ => ?_, fun topic => ?_⟩
            · simp [subAckCode, inside]
            · rw [if_pos ⟨trivial, inside⟩, after]
          · have hl := @subscribeEach_of_fenced _
              (protoSubOption prop.maxQos packet.subscriptionIdentifier) _ _ (fun _ => rfl)
              hv inside
            simp only [hl] at ha
            cases ha
            rw [buildSubAckReasons_codes prop.maxQos (fun _ => -1)]
            refine ⟨List.map_congr_left fun sub _ => ?_, fun topic => ?_⟩
            · simp [subAckCode, inside, answerCode, subscribeAckQoS]
            · rw [if_neg fun hb => inside hb.2]

/-! ## UNSUBACK -/

/-- A DeleteSub is accepted under the stored token, or without one. -/
def Deletes (center : MemorySubCenter) (writer : Writer) : Prop :=
  ¬(writer.ownerToken ≠ "" ∧ center.getOwnerToken writer.clientID ≠ writer.ownerToken)

instance (center : MemorySubCenter) (writer : Writer) : Decidable (Deletes center writer) :=
  inferInstanceAs (Decidable (¬_))

def deleteCodes (center : MemorySubCenter) (clientID : ClientID) : List String → List Int
  | [] => []
  | topic :: rest =>
    (center.deleteOne clientID topic).2 :: deleteCodes (center.deleteOne clientID topic).1
      clientID rest

theorem deleteSub_codes {cen : MemorySubCenter} {cid : ClientID} {topics : List String}
    {answered : List Int} :
    (topics.foldl (fun (state : MemorySubCenter × List Int) topic =>
        let (next, code) := state.1.deleteOne cid topic
        (next, state.2 ++ [code])) (cen, answered)).2 =
      answered ++ deleteCodes cen cid topics := by
  induction topics generalizing cen answered with
  | nil => simp [deleteCodes]
  | cons topic rest ih =>
    rw [List.foldl_cons, ih]
    simp [deleteCodes]

/-- The code that answers an UNSUBSCRIBE entry once the center has been asked. -/
def unsubCode (answer : Int) : Nat := if answer = -1 then 0x80 else answer.toNat % 256

theorem buildUnsubAckReasons_map (answer : String → Int) (topics : List String) :
    buildUnsubAckReasons (precheckUnsubscribeTopics topics).1
        ((precheckUnsubscribeTopics topics).2.map answer) =
      topics.map fun topic =>
        if invalidSubscribeTopicFilter topic then 0x8F else unsubCode (answer topic) := by
  induction topics with
  | nil => rfl
  | cons topic rest ih =>
    simp only [precheckUnsubscribeTopics] at ih
    cases hv : invalidSubscribeTopicFilter topic <;>
      simp [precheckUnsubscribeTopics, buildUnsubAckReasons, unsubCode, hv, ih]

theorem buildUnsubAckReasons_deleteCodes {cid : ClientID} (topics : List String)
    (cen : MemorySubCenter) :
    (buildUnsubAckReasons (precheckUnsubscribeTopics topics).1
        (deleteCodes cen cid (precheckUnsubscribeTopics topics).2)).length =
        topics.length ∧
      ∀ before topic after, topics = before ++ topic :: after →
        (buildUnsubAckReasons (precheckUnsubscribeTopics topics).1
          (deleteCodes cen cid (precheckUnsubscribeTopics topics).2))[before.length]? =
          some (if invalidSubscribeTopicFilter topic then 0x8F
            else if (cen.subscription cid topic).isSome ∧ topic ∉ before then 0
            else 0x11) := by
  induction topics generalizing cen with
  | nil => exact ⟨rfl, fun before topic after hp => by simp at hp⟩
  | cons head rest ih =>
    cases hv : invalidSubscribeTopicFilter head with
    | true =>
      obtain ⟨hl, hc⟩ := ih cen
      have hb : buildUnsubAckReasons (precheckUnsubscribeTopics (head :: rest)).1
          (deleteCodes cen cid (precheckUnsubscribeTopics (head :: rest)).2) =
          0x8F :: buildUnsubAckReasons (precheckUnsubscribeTopics rest).1
            (deleteCodes cen cid (precheckUnsubscribeTopics rest).2) := by
        simp [precheckUnsubscribeTopics, buildUnsubAckReasons, hv]
      rw [hb]
      refine ⟨congrArg Nat.succ hl, fun before topic after hp => ?_⟩
      cases before with
      | nil =>
        obtain ⟨rfl, rfl⟩ := List.cons.inj hp
        simp [hv]
      | cons first before =>
        obtain ⟨rfl, rfl⟩ := List.cons.inj hp
        rw [List.length_cons, List.getElem?_cons_succ, hc before topic after rfl]
        cases other : invalidSubscribeTopicFilter topic with
        | true => rfl
        | false =>
          have hne : topic ≠ head := by
            rintro rfl
            rw [hv] at other
            cases other
          simp [hne]
    | false =>
      obtain ⟨hl, hc⟩ := ih (cen.deleteOne cid head).1
      have hb : buildUnsubAckReasons (precheckUnsubscribeTopics (head :: rest)).1
          (deleteCodes cen cid (precheckUnsubscribeTopics (head :: rest)).2) =
          (if (cen.subscription cid head).isSome then 0 else 0x11) ::
            buildUnsubAckReasons (precheckUnsubscribeTopics rest).1
              (deleteCodes (cen.deleteOne cid head).1 cid (precheckUnsubscribeTopics rest).2) := by
        cases hs : (cen.subscription cid head).isSome <;>
          simp [precheckUnsubscribeTopics, buildUnsubAckReasons, deleteCodes, hv,
            MemorySubCenter.deleteOne_code, hs]
      rw [hb]
      refine ⟨congrArg Nat.succ hl, fun before topic after hp => ?_⟩
      cases before with
      | nil =>
        obtain ⟨rfl, rfl⟩ := List.cons.inj hp
        simp [hv]
      | cons first before =>
        obtain ⟨rfl, rfl⟩ := List.cons.inj hp
        rw [List.length_cons, List.getElem?_cons_succ, hc before topic after rfl,
          MemorySubCenter.subscription_deleteOne]
        by_cases he : topic = head <;> simp [he]

theorem handleUnsub_codes (writer : Writer) (denied : Bool) (topics : List String)
    (cen : MemorySubCenter) :
    (handleUnsub writer denied topics cen).2.length = topics.length ∧
      ∀ before topic after, topics = before ++ topic :: after →
        ((handleUnsub writer denied topics cen).2[before.length]? = some 0 ↔
          denied = false ∧ invalidSubscribeTopicFilter topic = false ∧ Deletes cen writer ∧
            (cen.subscription writer.clientID topic).isSome ∧ topic ∉ before) := by
  unfold handleUnsub
  cases denied with
  | true =>
    refine ⟨List.length_map _, fun before topic after hp => ?_⟩
    simp [hp]
  | false =>
    simp only [Bool.false_eq_true, if_false]
    split
    · -- every filter is refused
      rename_i empty
      refine ⟨List.length_map _, fun before topic after hp => ?_⟩
      have hr : invalidSubscribeTopicFilter topic = true := by
        have all : ∀ topic ∈ topics, invalidSubscribeTopicFilter topic = true := by
          simpa [precheckUnsubscribeTopics] using empty
        exact all topic (by simp [hp])
      simp [precheckUnsubscribeTopics, hp, hr]
    · by_cases hd : Deletes cen writer
      · rw [MemorySubCenter.deleteSub, if_neg hd]
        dsimp only
        rw [deleteSub_codes, List.nil_append]
        obtain ⟨hl, hc⟩ := @buildUnsubAckReasons_deleteCodes writer.clientID topics cen
        refine ⟨hl, fun before topic after hp => ?_⟩
        rw [hc before topic after hp]
        cases invalidSubscribeTopicFilter topic <;> simp [hd]
      · rw [MemorySubCenter.deleteSub, if_pos (not_not.mp hd)]
        dsimp only
        rw [buildUnsubAckReasons_map fun _ => -1]
        refine ⟨List.length_map _, fun before topic after hp => ?_⟩
        cases hv : invalidSubscribeTopicFilter topic <;> simp [hp, hv, hd, unsubCode]

/-! ## Main result -/

/-- A SUBACK and an UNSUBACK answer every filter, in the order of the packet. A success code
is the stored QoS, a failure code changes nothing, and a filter is reported as removed when
the request is let through and the filter was there at its turn. -/
theorem acks_match_center (prop : ConnectAckProperty) (writer : Writer) (denied : Bool)
    (center : MemorySubCenter) :
    (∀ packet next reasons granted,
      handleSub prop writer denied packet center = .acknowledged next reasons granted →
      reasons.length = packet.subscriptions.length ∧
      ∀ before sub after (code : Nat), packet.subscriptions = before ++ sub :: after →
        reasons[before.length]? = some code →
        (code < 0x80 → (∀ later ∈ after, later.topic ≠ sub.topic) →
          ∃ option, next.subscription writer.clientID sub.topic = some option ∧ option.qos = code) ∧
        (0x80 ≤ code → next.subscription writer.clientID sub.topic =
          center.subscription writer.clientID sub.topic)) ∧
    ∀ topics, (handleUnsub writer denied topics center).2.length = topics.length ∧
      ∀ before topic after, topics = before ++ topic :: after →
        ((handleUnsub writer denied topics center).2[before.length]? = some 0 ↔
          denied = false ∧ invalidSubscribeTopicFilter topic = false ∧ Deletes center writer ∧
            (center.subscription writer.clientID topic).isSome ∧ topic ∉ before) := by
  refine ⟨?_, fun topics => handleUnsub_codes writer denied topics center⟩
  intro packet next reasons granted acked
  obtain ⟨rfl, hs⟩ := handleSub_acknowledged acked
  refine ⟨List.length_map _, fun before sub after code hp coded => ?_⟩
  have ha : code = subAckCode prop.maxQos denied
      (center.Admits writer.clientID writer.ownerToken) sub := by
    simpa [hp, eq_comm] using coded
  subst ha
  have succeeds := @subAckCode_lt_iff _ prop.bounded denied
    (center.Admits writer.clientID writer.ownerToken) sub
  constructor
  · intro done hl
    obtain ⟨notDenied, hv, inside⟩ := succeeds.mp done
    rw [decide_eq_true_eq] at inside
    refine ⟨protoSubOption prop.maxQos packet.subscriptionIdentifier sub, ?_, ?_⟩
    · rw [hs, if_pos ⟨notDenied, inside⟩, hp, List.filter_append, List.filter_cons, hv]
      rw [storedBy, List.foldl_append, Bool.not_false, if_pos rfl, List.foldl_cons, if_pos rfl]
      exact storedBy_of_absent fun later hm => hl later (List.mem_of_mem_filter hm)
    · rw [subAckCode, notDenied, hv]
      simp only [Bool.false_eq_true, if_false, inside, decide_true, if_true, protoSubOption]
      split <;> omega
  · intro hf
    rw [hs]
    split
    · rename_i owned
      -- the filter of a failure code is malformed, so no entry with it reaches the center
      refine storedBy_of_absent fun later hm he => ?_
      have hv : invalidSubscribeTopicFilter later.topic = false := by
        simpa using List.of_mem_filter hm
      rw [he] at hv
      have done := succeeds.mpr ⟨owned.1, hv, decide_eq_true owned.2⟩
      omega
    · rfl

/-- A filter given twice, and a malformed one between them. -/
theorem acks_match_center_repeated : ∃ next reasons granted,
      handleSub { maxQos := 1 } ⟨"alice", "t1", 1⟩ false
        { subscriptions := [{ topic := "a/b", qos := 0 }, { topic := "a#", qos := 1 },
          { topic := "a/b", qos := 2 }] } .empty = .acknowledged next reasons granted ∧
      reasons = [0, 0x8F, 1] ∧
      ∃ option, next.subscription "alice" "a/b" = some option ∧ option.qos = 1 := by
  refine ⟨_, _, _, rfl, by decide, ?_⟩
  exact (((acks_match_center { maxQos := 1 } ⟨"alice", "t1", 1⟩ false .empty).1
    { subscriptions := [{ topic := "a/b", qos := 0 }, { topic := "a#", qos := 1 },
      { topic := "a/b", qos := 2 }] } _ _ _ rfl).2
    [{ topic := "a/b", qos := 0 }, { topic := "a#", qos := 1 }] { topic := "a/b", qos := 2 } []
    1 rfl (by decide)).1 (by decide) nofun

/-- A taken-over connection is refused although the subscription exists. -/
theorem stale_unsubscribe_refused :
    ∃ center : MemorySubCenter, (center.subscription "alice" "a").isSome ∧
      (handleUnsub ⟨"alice", "t1", 1⟩ false ["a"] center).2 = [0x80] :=
  let subscribed := (MemorySubCenter.empty.createSub "alice" "t1" [{ topic := "a", qos := 1 }]).1
  ⟨(subscribed.setClientOwnerToken "alice" "t2").1, by decide +kernel, by decide +kernel⟩

end SkyTree.Client
