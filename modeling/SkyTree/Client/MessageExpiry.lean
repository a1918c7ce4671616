import SkyTree.Retain.Message

/-!
# Message expiry on the way to a client

A PUBLISH with a Message Expiry Interval is stored with an absolute deadline. The
first send and the retained send replace the interval by the time left at a clock
reading of their own; a retransmission and a restore copy the interval that is stored.
The write itself comes later than the reading, so each path is judged by the time of
the write.
-/

namespace SkyTree.Client

open Mqtt Retain

structure ExpiringPublish where
  publish : Publish
  interval : Nat
  carries : publish.properties.messageExpiry = some interval
  bounded : interval < 2 ^ 32
  created : Int
  afterEpoch : 0 < created

def ExpiringPublish.deadline (arrival : ExpiringPublish) : Int :=
  arrival.created + arrival.interval * second

/-- A stored message; `expiredTime` is zero without a deadline. -/
structure StoredMessage where
  publish : Publish
  createdTime : Int
  expiredTime : Int

def savePublishMessage (publish : Publish) (ts : Int) : StoredMessage where
  publish := { publish with packetID := 0 }
  createdTime := ts
  expiredTime :=
    match publish.properties.messageExpiry with
    | none => 0
    | some expiry => if expiry = 0 then ts else ts + expiry * second

def withExpiry (publish : Publish) (interval : Option Nat) : Publish :=
  { publish with properties := { publish.properties with messageExpiry := interval } }

def secondsLeft (deadline now : Int) : Int := (deadline - now + second - 1) / second

def applyMessageExpiryForDelivery (publish : Publish) (expiredTime now : Int) : Option Publish :=
  if expiredTime = 0 then some (withExpiry publish none)
  else if expiredTime - now ≤ 0 then none
  else
    let remaining := uint32 (secondsLeft expiredTime now)
    if remaining = 0 then none else some (withExpiry publish (some remaining))

section Paths

variable (validUTF8 : List UInt8 → Bool)

def outboundPayloadFormatInvalid (publish : Publish) : Bool :=
  decide (publish.properties.payloadFormat = some 1) && !validUTF8 publish.payload

/-- What a subscription and its in-flight entry prescribe for a send. -/
structure SendOptions where
  retainAsPublished : Bool
  qos : Nat
  packetID : PacketID

def applyRetainAsPublished (options : SendOptions) (publish : Publish) : Publish :=
  if options.retainAsPublished then publish else { publish with retain := false }

section

variable (message : StoredMessage) (options : SendOptions)

def applyDeliveryPublishOptions (now : Int) :
    Option Publish :=
  match applyMessageExpiryForDelivery message.publish message.expiredTime now with
  | none => none
  | some publish =>
    if outboundPayloadFormatInvalid validUTF8 publish then none
    else some (applyRetainAsPublished options publish)

def deliverSingleClientDeliveryTask (now : Int) :
    Option Publish :=
  (applyDeliveryPublishOptions validUTF8 message options now).map fun publish =>
    { publish with qos := options.qos, packetID := if options.qos = 0 then 0 else options.packetID }

def handleQoS0DirectNotify (now : Int) :
    Option Publish :=
  match applyMessageExpiryForDelivery message.publish message.expiredTime now with
  | none => none
  | some publish =>
    if outboundPayloadFormatInvalid validUTF8 publish then none
    else some (applyRetainAsPublished options { publish with qos := 0, packetID := 0 })

def retransmitPublishFromTask : Publish :=
  let publish := applyRetainAsPublished options message.publish
  { publish with qos := options.qos, packetID := options.packetID, duplicate := true }

variable (message : RetainMessage)

def getRetainMessage (readAt now : Int) : Option Publish :=
  if isExpired message readAt then none else publishFromRetainMessage message now

def sendRetainedForTopic (options : SendOptions) (readAt now : Int) :
    Option Publish :=
  match getRetainMessage message readAt now with
  | none => none
  | some served =>
    let publish := applyRetainAsPublished options served
    let lowered := { publish with qos := min publish.qos options.qos }
    if outboundPayloadFormatInvalid validUTF8 lowered then none
    else some
      { lowered with packetID := if lowered.qos = 0 then 0 else options.packetID }

def retainedEntryPacket (options : SendOptions) (readAt now : Int) :
    Option Publish :=
  (sendRetainedForTopic validUTF8 message options readAt now).filter fun publish =>
    decide (publish.qos ≠ 0)

def retransmitRetainedPublishFromEntry (packet : Publish) (options : SendOptions) : Publish :=
  { packet with packetID := options.packetID, duplicate := true }

/-- The ways a PUBLISH is written, with the clock readings each of them makes. -/
inductive SendPath where
  | firstSend (checkedAt : Int)
  | qos0Direct (checkedAt : Int)
  | retransmission
  | restore
  | retainedSend (readAt checkedAt : Int)
  | retainedRetransmission (readAt checkedAt : Int)
  | retainedRestore (readAt checkedAt : Int)

def sent (arrival : ExpiringPublish) (options : SendOptions) : SendPath → Option Publish
  | .firstSend checkedAt => deliverSingleClientDeliveryTask validUTF8
      (savePublishMessage arrival.publish arrival.created) options checkedAt
  | .qos0Direct checkedAt => handleQoS0DirectNotify validUTF8
      (savePublishMessage arrival.publish arrival.created) options checkedAt
  | .retransmission => some (retransmitPublishFromTask
      (savePublishMessage arrival.publish arrival.created) options)
  | .restore => some (retransmitPublishFromTask
      (savePublishMessage arrival.publish arrival.created) options)
  | .retainedSend readAt checkedAt => sendRetainedForTopic validUTF8
      (newRetainMessageFromPublish arrival.publish arrival.created "") options readAt checkedAt
  | .retainedRetransmission readAt checkedAt =>
    (retainedEntryPacket validUTF8 (newRetainMessageFromPublish arrival.publish arrival.created "")
      options readAt checkedAt).map fun packet =>
        retransmitRetainedPublishFromEntry packet options
  | .retainedRestore readAt checkedAt =>
    (retainedEntryPacket validUTF8 (newRetainMessageFromPublish arrival.publish arrival.created "")
      options readAt checkedAt).map fun packet =>
        retransmitRetainedPublishFromEntry packet options

/-- The PUBLISH is written before the deadline with at most the time left, rounded up. -/
def Timely (deadline writtenAt : Int) (publish : Publish) : Prop :=
  writtenAt < deadline ∧ ∃ interval : Nat,
    publish.properties.messageExpiry = some interval ∧
      (interval : Int) ≤ secondsLeft deadline writtenAt

/-- The interval a retained send carries: the whole seconds left at the reading, at least
one. -/
def retainedInterval (deadline checkedAt : Int) : Nat :=
  max 1 (uint32 ((deadline - checkedAt) / second))

variable (arrival : ExpiringPublish)

/-- What a retained send needs: it finds nothing to send, or the interval still fits. -/
def RetainedInTime (readAt checkedAt writtenAt : Int) : Prop :=
  arrival.publish.topic = "" ∨ arrival.deadline ≤ readAt ∨ arrival.deadline ≤ checkedAt ∨
    outboundPayloadFormatInvalid validUTF8 arrival.publish = true ∨
    (writtenAt < arrival.deadline ∧
      (retainedInterval arrival.deadline checkedAt : Int) ≤ secondsLeft arrival.deadline writtenAt)

/-- What a first send needs: it drops the message, or no second of the time left passes
between the reading and the write. -/
def CheckedInTime (checkedAt writtenAt : Int) : Prop :=
  arrival.deadline ≤ checkedAt ∨ uint32 (secondsLeft arrival.deadline checkedAt) = 0 ∨
    outboundPayloadFormatInvalid validUTF8 arrival.publish = true ∨
    (writtenAt < arrival.deadline ∧
      (uint32 (secondsLeft arrival.deadline checkedAt) : Int) ≤
        secondsLeft arrival.deadline writtenAt)

/-- The times at which a write along the path keeps the deadline. -/
def InTime (options : SendOptions) (writtenAt : Int) : SendPath → Prop
  | .firstSend checkedAt => CheckedInTime validUTF8 arrival checkedAt writtenAt
  | .qos0Direct checkedAt => CheckedInTime validUTF8 arrival checkedAt writtenAt
  | .retransmission => writtenAt < arrival.deadline ∧ writtenAt < arrival.created + second
  | .restore => writtenAt < arrival.deadline ∧ writtenAt < arrival.created + second
  | .retainedSend readAt checkedAt => RetainedInTime validUTF8 arrival readAt checkedAt writtenAt
  | .retainedRetransmission readAt checkedAt =>
    min arrival.publish.qos options.qos = 0 ∨
      RetainedInTime validUTF8 arrival readAt checkedAt writtenAt
  | .retainedRestore readAt checkedAt =>
    min arrival.publish.qos options.qos = 0 ∨
      RetainedInTime validUTF8 arrival readAt checkedAt writtenAt

end

/-! ## What the paths carry -/

variable {writtenAt : Int}

theorem timely_congr {due : Int} {first second : Publish}
    (he : first.properties.messageExpiry = second.properties.messageExpiry) :
    Timely due writtenAt first ↔ Timely due writtenAt second := by
  rw [Timely, Timely, he]

theorem timely_iff {due : Int} {pub : Publish} {ival : Nat}
    (hc : pub.properties.messageExpiry = some ival) :
    Timely due writtenAt pub ↔ writtenAt < due ∧ (ival : Int) ≤ secondsLeft due writtenAt := by
  simp [Timely, hc]

section

variable (opts : SendOptions)

@[simp] theorem applyRetainAsPublished_properties (pub : Publish) :
    (applyRetainAsPublished opts pub).properties = pub.properties := by
  rw [applyRetainAsPublished]
  split <;> rfl

@[simp] theorem applyRetainAsPublished_payload (pub : Publish) :
    (applyRetainAsPublished opts pub).payload = pub.payload := by
  rw [applyRetainAsPublished]
  split <;> rfl

@[simp] theorem applyRetainAsPublished_qos (pub : Publish) :
    (applyRetainAsPublished opts pub).qos = pub.qos := by
  rw [applyRetainAsPublished]
  split <;> rfl

end

variable (arr : ExpiringPublish)

theorem ExpiringPublish.deadline_pos : 0 < arr.deadline := by
  have hc := arr.afterEpoch
  have hp : (0 : Int) ≤ arr.interval * second := by
    unfold second
    omega
  unfold ExpiringPublish.deadline
  omega

theorem savePublishMessage_expiredTime :
    (savePublishMessage arr.publish arr.created).expiredTime = arr.deadline := by
  simp only [savePublishMessage, arr.carries, ExpiringPublish.deadline]
  split
  · case isTrue zero => simp [zero]
  · rfl

theorem applyMessageExpiryForDelivery_saved (chk : Int) :
    applyMessageExpiryForDelivery (savePublishMessage arr.publish arr.created).publish
      (savePublishMessage arr.publish arr.created).expiredTime chk =
      if arr.deadline ≤ chk ∨ uint32 (secondsLeft arr.deadline chk) = 0 then none
      else some (withExpiry { arr.publish with packetID := 0 }
        (some (uint32 (secondsLeft arr.deadline chk)))) := by
  have hp := arr.deadline_pos
  rw [savePublishMessage_expiredTime, applyMessageExpiryForDelivery, if_neg (Int.ne_of_gt hp)]
  by_cases past : arr.deadline ≤ chk
  · rw [if_pos (by omega), if_pos (.inl past)]
  · rw [if_neg (by omega)]
    simp [past, savePublishMessage]

variable {chk : Int}

theorem checked_timely_iff {finish : Publish → Publish}
    (hk : ∀ pub, (finish pub).properties = pub.properties) :
    (∀ pub, (match applyMessageExpiryForDelivery
          (savePublishMessage arr.publish arr.created).publish
          (savePublishMessage arr.publish arr.created).expiredTime chk with
        | none => none
        | some pub => if outboundPayloadFormatInvalid validUTF8 pub then none
            else some (finish pub)) = some pub →
      Timely arr.deadline writtenAt pub) ↔
      CheckedInTime validUTF8 arr chk writtenAt := by
  rw [applyMessageExpiryForDelivery_saved, CheckedInTime]
  by_cases hd : arr.deadline ≤ chk ∨ uint32 (secondsLeft arr.deadline chk) = 0
  · simp only [if_pos hd]
    exact iff_of_true (fun _ hn => by cases hn) (by
      rcases hd with hp | hz
      · exact .inl hp
      · exact .inr (.inl hz))
  · have hf : outboundPayloadFormatInvalid validUTF8 (withExpiry { arr.publish with packetID := 0 }
          (some (uint32 (secondsLeft arr.deadline chk)))) =
        outboundPayloadFormatInvalid validUTF8 arr.publish := rfl
    simp only [if_neg hd, hf]
    rw [not_or] at hd
    by_cases hi : outboundPayloadFormatInvalid validUTF8 arr.publish = true
    · simp [hi]
    · have hc : (finish (withExpiry { arr.publish with packetID := 0 }
          (some (uint32 (secondsLeft arr.deadline chk))))).properties.messageExpiry =
          some (uint32 (secondsLeft arr.deadline chk)) := by
        rw [hk]
        rfl
      simp only [if_neg hi, Option.some.injEq, forall_eq', timely_iff hc]
      simp [hd, hi]

theorem retransmit_timely_iff (opts : SendOptions) :
    Timely arr.deadline writtenAt (retransmitPublishFromTask
      (savePublishMessage arr.publish arr.created) opts) ↔
      writtenAt < arr.deadline ∧ writtenAt < arr.created + second := by
  have hc : (retransmitPublishFromTask (savePublishMessage arr.publish arr.created)
      opts).properties.messageExpiry = some arr.interval := by
    simp [retransmitPublishFromTask, savePublishMessage, arr.carries]
  -- the stored interval fits for one second after the arrival
  rw [timely_iff hc, secondsLeft, Int.le_ediv_iff_mul_le (by decide)]
  unfold ExpiringPublish.deadline
  omega

theorem served_retainPublishForWireEncoding (pub : Publish) (topic : String) :
    { retainPublishForWireEncoding pub with
      topic := topic, retain := true, packetID := 0 } =
      ({ pub with topic := topic, retain := true, packetID := 0 } : Publish) := by
  rw [retainPublishForWireEncoding]
  split <;> rfl

theorem retained_expiredAt :
    (newRetainMessageFromPublish arr.publish arr.created "").expiredAtUnixNano = arr.deadline := by
  simp [newRetainMessageFromPublish, retainedExpiredAtUnixNano, arr.carries,
    ExpiringPublish.deadline]

theorem retained_publish_of_named (hn : arr.publish.topic ≠ "") (chk : Int) :
    publishFromRetainMessage (newRetainMessageFromPublish arr.publish arr.created "") chk =
      if arr.deadline ≤ chk then none
      else some (withExpiry { arr.publish with retain := true, packetID := 0 }
        (some (retainedInterval arr.deadline chk))) := by
  have ht : (newRetainMessageFromPublish arr.publish arr.created "").topic =
      arr.publish.topic := rfl
  have hc : decodedPublish (newRetainMessageFromPublish arr.publish arr.created "") =
      some (retainPublishForWireEncoding arr.publish) := rfl
  have hh : ∀ count : Nat, (if count = 0 then 1 else count) = max 1 count := by
    intro count
    split <;> omega
  rw [publishFromRetainMessage, ht, if_neg hn, hc, retained_expiredAt]
  show applyRetainedMessageExpiry { retainPublishForWireEncoding arr.publish with
    topic := arr.publish.topic, retain := true, packetID := 0 } arr.deadline chk = _
  rw [served_retainPublishForWireEncoding]
  simp only [applyRetainedMessageExpiry, arr.carries, hh, if_neg (not_le.mpr arr.deadline_pos)]
  rfl

theorem getRetainMessage_retained (readAt chk : Int) :
    getRetainMessage (newRetainMessageFromPublish arr.publish arr.created "") readAt chk =
      if arr.publish.topic = "" ∨ arr.deadline ≤ readAt ∨ arr.deadline ≤ chk then
        none
      else some (withExpiry { arr.publish with retain := true, packetID := 0 }
        (some (retainedInterval arr.deadline chk))) := by
  have he : isExpired (newRetainMessageFromPublish arr.publish arr.created "") readAt =
      decide (arr.deadline ≤ readAt) := by
    simp [isExpired, retained_expiredAt, arr.deadline_pos]
  rw [getRetainMessage, he]
  by_cases hu : arr.publish.topic = ""
  · simp [publishFromRetainMessage, newRetainMessageFromPublish, hu]
  · rw [retained_publish_of_named arr hu]
    by_cases hr : arr.deadline ≤ readAt
    · simp [hr]
    · simp [hu, hr]

variable (opts : SendOptions)

theorem sendRetainedForTopic_retained (readAt chk : Int) :
    (arr.publish.topic = "" ∨ arr.deadline ≤ readAt ∨ arr.deadline ≤ chk ∨
        outboundPayloadFormatInvalid validUTF8 arr.publish = true) ∧
      sendRetainedForTopic validUTF8 (newRetainMessageFromPublish arr.publish arr.created "")
        opts readAt chk = none ∨
    ¬ (arr.publish.topic = "" ∨ arr.deadline ≤ readAt ∨ arr.deadline ≤ chk ∨
        outboundPayloadFormatInvalid validUTF8 arr.publish = true) ∧
      ∃ pub, sendRetainedForTopic validUTF8
          (newRetainMessageFromPublish arr.publish arr.created "") opts readAt
          chk = some pub ∧
        pub.properties.messageExpiry = some (retainedInterval arr.deadline chk) ∧
        pub.qos = min arr.publish.qos opts.qos := by
  rw [sendRetainedForTopic, getRetainMessage_retained]
  by_cases hn : arr.publish.topic = "" ∨ arr.deadline ≤ readAt ∨ arr.deadline ≤ chk
  · refine .inl ⟨by grind, ?_⟩
    rw [if_pos hn]
  · rw [if_neg hn]
    by_cases hi : outboundPayloadFormatInvalid validUTF8 arr.publish = true
    · refine .inl ⟨by grind, if_pos ?_⟩
      simpa [outboundPayloadFormatInvalid, withExpiry] using hi
    · refine .inr ⟨by grind, _, if_neg ?_, ?_, ?_⟩
      · simpa [outboundPayloadFormatInvalid, withExpiry] using hi
      · simp [withExpiry]
      · simp [withExpiry]

theorem retainedSend_timely_iff {readAt : Int} : (∀ pub, sendRetainedForTopic validUTF8
        (newRetainMessageFromPublish arr.publish arr.created "") opts readAt
        chk = some pub → Timely arr.deadline writtenAt pub) ↔
      RetainedInTime validUTF8 arr readAt chk writtenAt := by
  rw [RetainedInTime]
  rcases sendRetainedForTopic_retained validUTF8 arr opts readAt chk with
    ⟨hr, hn⟩ | ⟨hr, pub, hs, hc, -⟩
  · rw [hn]
    exact iff_of_true (fun _ hn => by cases hn) (by grind)
  · rw [hs]
    simp only [Option.some.injEq, forall_eq', timely_iff hc]
    grind

theorem retainedAgain_timely_iff {readAt : Int} : (∀ pub, ((retainedEntryPacket validUTF8
        (newRetainMessageFromPublish arr.publish arr.created "") opts readAt
        chk).map fun packet => retransmitRetainedPublishFromEntry packet opts) =
        some pub → Timely arr.deadline writtenAt pub) ↔
      min arr.publish.qos opts.qos = 0 ∨ RetainedInTime validUTF8 arr readAt chk writtenAt := by
  rw [← retainedSend_timely_iff validUTF8 arr opts, retainedEntryPacket]
  rcases sendRetainedForTopic_retained validUTF8 arr opts readAt chk with
    ⟨-, hn⟩ | ⟨-, pub, hs, -, qos⟩
  · simp [hn]
  · have he : (retransmitRetainedPublishFromEntry pub opts).properties.messageExpiry =
        pub.properties.messageExpiry := rfl
    by_cases hz : min arr.publish.qos opts.qos = 0
    · simp [hs, Option.filter, qos, hz]
    · simp [hs, Option.filter, qos, hz, timely_congr he]

theorem sent_timely_iff (options : SendOptions) (path : SendPath) (writtenAt : Int) :
    (∀ publish, sent validUTF8 arr options path = some publish →
      Timely arr.deadline writtenAt publish) ↔
      InTime validUTF8 arr options writtenAt path := by
  cases path with
  | firstSend checkedAt =>
    rw [InTime, ← checked_timely_iff validUTF8 arr (applyRetainAsPublished_properties options)]
    simp only [sent, deliverSingleClientDeliveryTask, Option.map_eq_some_iff]
    constructor
    · intro ht publish hf
      have ended := ht _ ⟨publish, hf, rfl⟩
      exact (timely_congr rfl).mp ended
    · rintro ht publish ⟨before, hf, rfl⟩
      exact (timely_congr rfl).mp (ht before hf)
  | qos0Direct checkedAt =>
    exact checked_timely_iff validUTF8 arr
      fun publish => by rw [applyRetainAsPublished_properties]
  | retransmission | restore =>
    simp only [sent, Option.some.injEq, forall_eq', retransmit_timely_iff, InTime]
  | retainedSend readAt checkedAt => exact retainedSend_timely_iff validUTF8 arr options
  | retainedRetransmission readAt checkedAt =>
    exact retainedAgain_timely_iff validUTF8 arr options
  | retainedRestore readAt checkedAt => exact retainedAgain_timely_iff validUTF8 arr options

end Paths

/-- A message that lives five seconds is retransmitted after ten, with the interval it
arrived with. -/
theorem retransmission_not_timely : ∃ arrival : ExpiringPublish, ∃ publish,
      sent (fun _ => true) arrival ⟨false, 1, 7⟩ .retransmission = some publish ∧
      ¬ Timely arrival.deadline (arrival.created + 10 * second) publish := by
  refine ⟨⟨{ topic := "t", payload := [], qos := 1, properties := { messageExpiry := some 5 } }, 5,
    rfl, by decide, 1, by decide⟩, _, rfl, ?_⟩
  rintro ⟨he, -⟩
  revert he
  decide

end SkyTree.Client
