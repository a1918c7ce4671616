import SkyTree.Client.SubAck

/-!
# Retain Handling

After a SUBACK the retained messages of the granted filters are sent. With Retain Handling 1
an entry is served only when its filter is new, and what is new is kept in a set that is read
before the packet and extended in the loop, but only by entries with Retain Handling 1.
-/

namespace SkyTree.Client

open Subscription Delivery.Router List

/-- The decisions of `sendRetainedAfterSubscribe`; a server without retained messages sends
nothing. -/
def retainedDecisions (prop : ConnectAckProperty) (clientID : ClientID) (center : MemorySubCenter)
    (packet : SubscribePacket) (granted : List SubOptions) : List Bool :=
  if prop.retainAvailable then
    sendRetainedAfterSubscribe granted (readExistingSessionSubscriptions center clientID packet)
  else granted.map fun _ => false

def Subscribed (center : MemorySubCenter) (clientID : ClientID) (topic : String) : Prop :=
  ∃ option ∈ center.getClientSubscriptions clientID, option.topic = topic

/-- An entry for which retained messages are due, after the entries before it. -/
def CallsForRetained (subscribed : Prop) (before : List SubOptions) (sub : SubOptions) : Prop :=
  isSharedSubscription sub.topic = false ∧
    (sub.retainHandling = 0 ∨
      sub.retainHandling = 1 ∧ ¬subscribed ∧ ∀ earlier ∈ before, earlier.topic ≠ sub.topic)

/-- An entry the loop decides rightly. Where a filter is repeated with Retain Handling 1, an
earlier entry with Retain Handling 1 must have put it into the set. -/
def Decided (available subscribed : Prop) (before : List SubOptions) (sub : SubOptions) : Prop :=
  (¬available → ¬CallsForRetained subscribed before sub) ∧
    (available → isSharedSubscription sub.topic = false →
      sub.retainHandling ≤ 2 ∧
        (sub.retainHandling = 1 → ¬subscribed → (∃ earlier ∈ before, earlier.topic = sub.topic) →
          ∃ earlier ∈ before, earlier.topic = sub.topic ∧ earlier.retainHandling = 1))

/-! ## The loop -/

theorem sendRetainedAfterSubscribe_at (before after : List SubOptions) (sub : SubOptions)
    (existed : List String) :
    (sendRetainedAfterSubscribe (before ++ sub :: after) existed)[before.length]? =
      some (shouldSendRetainedForSubscription sub
        (before.foldl (fun marked ear => markSubscriptionAsExisting ear marked) existed)) := by
  induction before generalizing existed with
  | nil => rfl
  | cons ear rest ih =>
    rw [cons_append, sendRetainedAfterSubscribe, length_cons, getElem?_cons_succ, ih]
    rfl

variable {sub : SubOptions} {existed : List String}

theorem mem_markSubscriptionAsExisting {topic : String} (hn : topic ≠ "")
    (plain : isSharedSubscription topic = false) :
    topic ∈ markSubscriptionAsExisting sub existed ↔
      topic ∈ existed ∨ sub.topic = topic ∧ sub.retainHandling = 1 := by
  unfold markSubscriptionAsExisting
  split
  · rename_i skipped
    constructor
    · exact .inl
    · rintro (hm | ⟨rfl, first⟩)
      · exact hm
      · rcases skipped with ho | he | hs
        · exact absurd first ho
        · exact absurd he hn
        · rw [plain] at hs
          cases hs
  · rename_i marked
    have first : sub.retainHandling = 1 := by
      by_contra ho
      exact marked (.inl ho)
    rw [mem_cons, or_comm, eq_comm]
    simp [first]

/-- The loop's set holds the filters read before and those of the earlier entries with Retain
Handling 1. -/
theorem mem_marked {before : List SubOptions} {topic : String} (hn : topic ≠ "")
    (ho : isSharedSubscription topic = false) :
    topic ∈ before.foldl (fun marked ear => markSubscriptionAsExisting ear marked) existed ↔
      topic ∈ existed ∨ ∃ ear ∈ before, ear.topic = topic ∧ ear.retainHandling = 1 := by
  induction before generalizing existed with
  | nil => simp
  | cons ear rest ih =>
    rw [foldl_cons, ih, mem_markSubscriptionAsExisting hn ho, or_assoc]
    simp

theorem shouldSend_iff (hn : sub.topic ≠ "") :
    shouldSendRetainedForSubscription sub existed = true ↔
      isSharedSubscription sub.topic = false ∧ sub.retainHandling ≠ 2 ∧
        (sub.retainHandling = 1 → sub.topic ∉ existed) := by
  unfold shouldSendRetainedForSubscription
  cases isSharedSubscription sub.topic with
  | true => simp
  | false =>
    by_cases hne : sub.retainHandling = 2
    · simp [hne]
    · simp [hne, hn, imp_iff_not_or]

theorem mem_readExisting_iff {center : MemorySubCenter} {cid : ClientID}
    {packet : SubscribePacket} (hm : sub ∈ packet.subscriptions) (hn : sub.topic ≠ "") :
    sub.topic ∈ readExistingSessionSubscriptions center cid packet ↔
      Subscribed center cid sub.topic := by
  unfold readExistingSessionSubscriptions Subscribed
  simp only [mem_map, mem_filter, Bool.and_eq_true, decide_eq_true_eq, any_eq_true]
  constructor
  · rintro ⟨e, ⟨-, -, opt, hs, ht⟩, he⟩
    exact ⟨opt, hs, ht.trans he⟩
  · rintro ⟨opt, hs, ht⟩
    exact ⟨sub, ⟨hm, hn, opt, hs, ht⟩, rfl⟩

theorem decision_iff {available subscribed : Prop} (hs : available)
    {before : List SubOptions} (hn : sub.topic ≠ "") (hr : sub.topic ∈ existed ↔ subscribed) :
    (shouldSendRetainedForSubscription sub
        (before.foldl (fun marked ear => markSubscriptionAsExisting ear marked) existed) =
        true ↔ CallsForRetained subscribed before sub) ↔
      Decided available subscribed before sub := by
  rw [shouldSend_iff hn]
  rw [Decided, eq_true hs, CallsForRetained]
  cases ho : isSharedSubscription sub.topic with
  | true => simp
  | false =>
    rw [mem_marked hn ho, hr]
    have twice : (∃ ear ∈ before, ear.topic = sub.topic ∧
        ear.retainHandling = 1) → ∃ ear ∈ before, ear.topic = sub.topic :=
      fun ⟨ear, hm, he, _⟩ => ⟨ear, hm, he⟩
    have hf : (∀ ear ∈ before, ear.topic ≠ sub.topic) ↔ ¬∃ ear ∈ before, ear.topic = sub.topic := by
      simp
    rw [hf]
    generalize (∃ ear ∈ before, ear.topic = sub.topic ∧ ear.retainHandling = 1) = marked at twice ⊢
    generalize (∃ ear ∈ before, ear.topic = sub.topic) = seen at twice ⊢
    match sub.retainHandling with
    | 0 => simp
    | 1 => simp; tauto
    | 2 => simp
    | code + 3 => simp

/-! ## Granted entries -/

theorem mem_granted {maxQos : Nat} {entries : List (SubOptions × Nat)} {answers : List Int}
    (granted : sub ∈ (buildSubAckReasons maxQos entries answers).2) :
    (sub, 0) ∈ entries := by
  induction entries generalizing answers with
  | nil => simp [buildSubAckReasons] at granted
  | cons e rest ih =>
    obtain ⟨head, rejected⟩ := e
    unfold buildSubAckReasons at granted
    split at granted
    · exact mem_cons_of_mem _ (ih granted)
    · rename_i hp
      obtain rfl : rejected = 0 := not_not.mp hp
      cases answers with
      | nil => exact mem_cons_of_mem _ (ih granted)
      | cons answer answers =>
        dsimp only at granted
        split at granted
        · exact mem_cons_of_mem _ (ih granted)
        · rcases mem_cons.mp granted with rfl | later
          · exact mem_cons_self
          · exact mem_cons_of_mem _ (ih later)

theorem topic_ne_empty_of_granted {prop : ConnectAckProperty} {writer : Writer} {denied : Bool}
    {packet : SubscribePacket} {center next : MemorySubCenter} {reasons : List Nat}
    {granted : List SubOptions}
    (ha : handleSub prop writer denied packet center = .acknowledged next reasons granted)
    (hm : sub ∈ granted) : sub.topic ≠ "" := by
  unfold handleSub at ha
  split at ha
  · cases ha
    cases hm
  · split at ha
    · cases ha
    · rename_i hc
      obtain rfl := rejectedReasons_of_precheck hc
      dsimp only at ha
      split at ha
      · cases ha
        cases hm
      · split at ha
        · cases ha
        · cases ha
          have hp : rejectedReason sub = 0 := by
            have zipped := mem_granted hm
            rw [← map_prod_left_eq_zip] at zipped
            obtain ⟨e, -, pair⟩ := mem_map.mp zipped
            obtain ⟨rfl, hz⟩ := Prod.mk.inj pair
            exact hz
          refine (validateTopicFilter_of_wellFormed ?_).1
          by_contra hi
          simp [rejectedReason, hi] at hp

/-! ## Main result -/

/-- With every entry granted, the retained messages are sent exactly where they are due if and
only if every entry is one the loop decides rightly. -/
theorem retained_sent_when_due_iff {prop : ConnectAckProperty} {writer : Writer} {denied : Bool}
    {packet : SubscribePacket} {center next : MemorySubCenter} {reasons : List Nat}
    (acknowledged : handleSub prop writer denied packet center =
      .acknowledged next reasons packet.subscriptions) :
    (∀ before sub after, packet.subscriptions = before ++ sub :: after →
      ((retainedDecisions prop writer.clientID center packet packet.subscriptions)[before.length]? =
          some true ↔
        CallsForRetained (Subscribed center writer.clientID sub.topic) before sub)) ↔
      ∀ before sub after, packet.subscriptions = before ++ sub :: after →
        Decided (prop.retainAvailable = true) (Subscribed center writer.clientID sub.topic) before
          sub := by
  refine forall_congr' fun before => forall_congr' fun sub => forall_congr' fun after =>
    forall_congr' fun hp => ?_
  have hm : sub ∈ packet.subscriptions := by simp [hp]
  have hn : sub.topic ≠ "" := topic_ne_empty_of_granted acknowledged hm
  unfold retainedDecisions
  cases ha : prop.retainAvailable with
  | false => simp [hp, Decided]
  | true =>
    have hd : (sendRetainedAfterSubscribe packet.subscriptions
        (readExistingSessionSubscriptions center writer.clientID packet))[before.length]? =
        some (shouldSendRetainedForSubscription sub
          (before.foldl (fun marked earlier => markSubscriptionAsExisting earlier marked)
            (readExistingSessionSubscriptions center writer.clientID packet))) := by
      generalize readExistingSessionSubscriptions center writer.clientID packet = existed
      rw [hp]
      exact sendRetainedAfterSubscribe_at before after sub existed
    rw [if_pos rfl, hd, Option.some_inj]
    exact decision_iff rfl hn (mem_readExisting_iff hm hn)

def twice : List SubOptions := [{ topic := "a/b", qos := 1, retainHandling := 1 },
  { topic := "a/b", qos := 2, retainHandling := 1 }]

/-- A new filter, twice: the retained messages are due and sent for the first entry only. -/
theorem retained_sent_for_new_filter :
    ∃ next reasons, handleSub {} ⟨"alice", "t1", 1⟩ false { subscriptions := twice } .empty =
        .acknowledged next reasons twice ∧
      ∀ before sub after, twice = before ++ sub :: after →
        ((retainedDecisions {} "alice" .empty { subscriptions := twice } twice)[before.length]? =
            some true ↔
          CallsForRetained (Subscribed .empty "alice" sub.topic) before sub) := by
  obtain ⟨next, reasons, done⟩ : ∃ next reasons, handleSub {} ⟨"alice", "t1", 1⟩ false
      { subscriptions := twice } .empty = .acknowledged next reasons twice := ⟨_, _, rfl⟩
  refine ⟨next, reasons, done,
    (retained_sent_when_due_iff done).mpr fun before sub after split => ?_⟩
  refine ⟨fun off => absurd rfl off, fun _ _ => ?_⟩
  rcases before with - | ⟨first, - | ⟨second, rest⟩⟩
  · obtain ⟨rfl, -⟩ := List.cons.inj split
    exact ⟨by decide, fun _ _ repeated => by simp at repeated⟩
  · obtain ⟨rfl, tail⟩ := List.cons.inj split
    obtain ⟨rfl, -⟩ := List.cons.inj tail
    exact ⟨by decide, fun _ _ _ => ⟨_, mem_cons_self, rfl, rfl⟩⟩
  · simp [twice] at split

/-- The second entry of a filter is served again, for the first one left no mark. -/
theorem repeated_filter_served_again : ∃ next reasons, handleSub {} ⟨"alice", "t1", 1⟩ false
        { subscriptions := [{ topic := "a", qos := 1, retainHandling := 0 },
          { topic := "a", qos := 1, retainHandling := 1 }] } .empty =
        .acknowledged next reasons [{ topic := "a", qos := 1, retainHandling := 0 },
          { topic := "a", qos := 1, retainHandling := 1 }] ∧
      (retainedDecisions {} "alice" .empty
          { subscriptions := [{ topic := "a", qos := 1, retainHandling := 0 },
            { topic := "a", qos := 1, retainHandling := 1 }] }
          [{ topic := "a", qos := 1, retainHandling := 0 },
            { topic := "a", qos := 1, retainHandling := 1 }])[1]? = some true ∧
      ¬CallsForRetained (Subscribed .empty "alice" "a")
        [{ topic := "a", qos := 1, retainHandling := 0 }]
        { topic := "a", qos := 1, retainHandling := 1 } :=
  ⟨_, _, rfl, rfl, by simp [CallsForRetained]⟩

end SkyTree.Client
