import SkyTree.Wire.RoundTrip

/-!
# PUBLISH with an arbitrary QoS byte

`Encode` refuses QoS 3 but no other value above 2. The bits of such a value above the
second fall on the DUP flag and on the packet type, so that what is sent is not the packet
that was meant.
-/

namespace SkyTree.Wire

open Foundation PropertySet

def Publish.toControlPacket (p : Publish) : ControlPacket where
  content := some (.publish p)
  packet := some (.publish p)
  type := 3
  flags := publishFlags p
  remainingLength := 0

/-- `Encode` fails, or what it yields decodes to the same PUBLISH. -/
def Publish.Kept (validUTF8 : Text → Bool) (limit : Int) (p : Publish) : Prop :=
  (∃ err, encode validUTF8 limit p.toControlPacket = .error err) ∨
    ∃ out cp q, encode validUTF8 limit p.toControlPacket = .ok out ∧
      decode validUTF8 0 out = .ok (cp, []) ∧ cp.canonicalPacket = some (.publish q) ∧
      q.qos = p.qos ∧ q.packetID = p.packetID ∧ q.duplicate = p.duplicate ∧ q.retain = p.retain ∧
      q.topic = p.topic ∧ q.payload = p.payload

variable {utf8 : Text → Bool} {limit : Int} {p : Publish}

/-! ## What can be written -/

def Publish.fields (p : Publish) : List PropertyField :=
  PropertySet.fields (p.properties.getD empty)

def Publish.propertyBytes (p : Publish) : List UInt8 :=
  vbiDigits 4 (p.fields.flatMap fieldBytes).length ++ p.fields.flatMap fieldBytes

/-- Topic, properties and size are within what the format can carry. -/
structure Publish.Writable (validUTF8 : Text → Bool) (limit : Int) (p : Publish) : Prop where
  named : p.topic = [] → p.topicAlias ≠ none
  plain : ∀ byte ∈ p.topic, byte ≠ 43 ∧ byte ≠ 35
  text : ValidText validUTF8 p.topic
  fields : ∀ field ∈ p.fields, Appendable validUTF8 .publish field
  properties : (p.fields.flatMap fieldBytes).length ≤ maxRemainingLength
  body : (p.layout p.propertyBytes).length ≤ maxRemainingLength
  size : Within limit
    (1 + (vbiDigits 4 (p.layout p.propertyBytes).length).length + (p.layout p.propertyBytes).length)

theorem validatePublishTopic_eq_ok {topic : Text} {topicAlias : Option UInt16} :
    validatePublishTopic topic topicAlias = .ok () ↔
      (topic = [] → topicAlias ≠ none) ∧ ∀ byte ∈ topic, byte ≠ 43 ∧ byte ≠ 35 := by
  rw [validatePublishTopic]
  cases topic with
  | nil => cases topicAlias <;> simp [ensure]
  | cons first topic =>
    rw [if_neg (List.cons_ne_nil _ _), validateTopicName, if_neg (List.cons_ne_nil _ _),
      ensure_eq_ok]
    simp [not_or]

theorem flags_accepted_iff (ha : 2 < p.qos) : (∃ flags, fixedHeaderFlags (.publish p) = .ok flags ∧
      validateFixedHeaderFlags .publish flags = .ok ()) ↔
      p.qos % 4 ≠ 3 ∧ (p.qos % 4 = 0 → p.duplicate = false ∧ p.qos % 8 < 4) := by
  have hc : ∀ qos : UInt8, 2 < qos → ∀ duplicate retain : Bool,
      (qos ≠ 3 ∧ (qos = 0 → duplicate = false)) ∧
          ((((qos <<< 1 ||| bit duplicate 0x08 ||| bit retain 0x01) >>> 1) &&& 0x03 != 0x03) =
              true ∧
            (((qos <<< 1 ||| bit duplicate 0x08 ||| bit retain 0x01) >>> 1) &&& 0x03 != 0x00 ||
              (qos <<< 1 ||| bit duplicate 0x08 ||| bit retain 0x01) &&& 0x08 == 0) = true) ↔
        qos % 4 ≠ 3 ∧ (qos % 4 = 0 → duplicate = false ∧ qos % 8 < 4) :=
    forall_uint8 (by decide +kernel)
  rw [← hc p.qos ha p.duplicate p.retain]
  simp only [fixedHeaderFlags_publish, validateFixedHeaderFlags, exceptBind_eq_ok, ensure_eq_ok]
  constructor
  · rintro ⟨_, ⟨hr, hs, rfl⟩, -, qos, duplicate⟩
    exact ⟨⟨hr, hs⟩, qos, duplicate⟩
  · rintro ⟨⟨hr, hs⟩, qos, duplicate⟩
    exact ⟨_, ⟨hr, hs, rfl⟩, (), qos, duplicate⟩

theorem encoded_iff (ha : 2 < p.qos) : (∃ out, encode utf8 limit p.toControlPacket = .ok out) ↔
      (p.qos % 4 ≠ 3 ∧ (p.qos % 4 = 0 → p.duplicate = false ∧ p.qos % 8 < 4)) ∧ p.packetID ≠ 0 ∧
        p.Writable utf8 limit := by
  have pos : 0 < p.qos := UInt8.lt_trans (by decide) ha
  rw [← flags_accepted_iff ha]
  constructor
  · rintro ⟨out, he⟩
    obtain ⟨content, flags, body, hc, -, hh, hv, hw, hb, rfl, hf⟩ := encode_eq_ok.mp he
    cases hc
    obtain ⟨bodyOk, props, putProps, rfl⟩ := encodePublish_eq_ok.mp hw
    obtain ⟨canAdd, propsLt, rfl⟩ := encodeProperties_eq_ok.mp putProps
    obtain ⟨hn, hp⟩ := validatePublishTopic_eq_ok.mp bodyOk.topic
    rw [length_frame] at hf
    exact ⟨⟨flags, hh, hv⟩, bodyOk.numbered pos, ⟨hn, hp, bodyOk.text, canAdd, propsLt, hb, hf⟩⟩
  · rintro ⟨⟨flags, hh, hv⟩, num, canPut⟩
    have hr := (fixedHeaderFlags_publish.mp hh).1
    have putProps : encodeProperties utf8 .publish p.properties = .ok p.propertyBytes :=
      encodeProperties_eq_ok.mpr ⟨canPut.fields, canPut.properties, rfl⟩
    have bodyOk : p.Valid utf8 := ⟨hr, fun hz => absurd pos (by rw [hz]; decide), fun _ => num,
        validatePublishTopic_eq_ok.mpr ⟨canPut.named, canPut.plain⟩, canPut.text⟩
    refine ⟨_, encode_eq_ok.mpr ⟨_, flags, p.layout p.propertyBytes, rfl, .inr rfl, hh, hv,
      encodePublish_eq_ok.mpr ⟨bodyOk, _, putProps, rfl⟩, canPut.body, rfl, ?_⟩⟩
    rw [length_frame]
    exact canPut.size

/-! ## What is kept -/

theorem kept_of_qos (qos : p.qos ≤ 2) : p.Kept utf8 limit := by
  cases he : encode utf8 limit p.toControlPacket with
  | error err => exact .inl ⟨err, he⟩
  | ok out =>
    have qosOk : p.toControlPacket.QoSValid := by
      intro content hc
      cases hc
      exact qos
    obtain ⟨again, -, hc, hr⟩ := decode_encoded qosOk he
    have hd := hr []
    rw [List.append_nil] at hd
    exact .inr ⟨out, again, p.normalize, he, hd, hc, rfl, rfl, rfl, rfl, rfl, rfl⟩

/-- What is decoded never has a QoS above 2. -/
theorem not_kept_of_encoded {out : List UInt8} (ha : 2 < p.qos)
    (coded : encode utf8 limit p.toControlPacket = .ok out) : ¬ p.Kept utf8 limit := by
  rintro (⟨err, hf⟩ | ⟨_, cp, q, -, hd, hc, he, -⟩)
  · rw [coded] at hf
    cases hf
  · obtain ⟨packet, flags, body, content, -, low, hv, -, hr, -, -, rfl⟩ := decode_eq_ok.mp hd
    cases hc
    have hb : q.qos ≤ 2 := (reencodable_of_decode low hv hr).qos
    rw [he] at hb
    exact UInt8.not_lt.mpr hb ha

/-- A PUBLISH survives exactly when its QoS is 0, 1 or 2, or `Encode` refuses it for another
reason. -/
theorem publish_kept_iff (validUTF8 : Text → Bool) (limit : Int) (p : Publish) :
    p.Kept validUTF8 limit ↔
      p.qos ≤ 2 ∨ p.qos % 4 = 3 ∨ (p.qos % 4 = 0 ∧ (p.duplicate = true ∨ 4 ≤ p.qos % 8)) ∨
        p.packetID = 0 ∨ ¬ p.Writable validUTF8 limit := by
  by_cases qos : p.qos ≤ 2
  · exact iff_of_true (kept_of_qos qos) (.inl qos)
  · have ha : 2 < p.qos := UInt8.not_le.mp qos
    have hk : p.Kept validUTF8 limit ↔
        ¬ ∃ out, encode validUTF8 limit p.toControlPacket = .ok out := by
      constructor
      · rintro hk ⟨out, he⟩
        exact not_kept_of_encoded ha he hk
      · intro hr
        cases he : encode validUTF8 limit p.toControlPacket with
        | error err => exact .inl ⟨err, he⟩
        | ok out => exact absurd ⟨out, he⟩ hr
    rw [hk, encoded_iff ha, ← Bool.not_eq_true, ← UInt8.not_le]
    tauto

/-- QoS 5 is sent as QoS 1 with DUP. -/
theorem publish_qos_lost :
    ¬ Publish.Kept (fun _ => true) 0 ⟨[1], [97], none, 7, 5, false, false⟩ := by
  have hh : fixedHeaderFlags (.publish ⟨[1], [97], none, 7, 5, false, false⟩) = .ok 0x0a :=
    fixedHeaderFlags_publish.mpr ⟨by decide, by decide, by decide⟩
  have hw : encodePacket (fun _ => true) (.publish ⟨[1], [97], none, 7, 5, false, false⟩) =
      .ok [0, 1, 97, 0, 7, 0, 1] := rfl
  exact not_kept_of_encoded (by decide) (encode_eq_ok.mpr
    ⟨_, _, _, rfl, .inr rfl, hh, rfl, hw, by decide, rfl, within_zero _⟩)

end SkyTree.Wire
