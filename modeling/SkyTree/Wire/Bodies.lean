import SkyTree.Wire.Codec

/-!
# Packet bodies

For each body: what the encoder asks of a packet and the bytes it writes, and which bytes
the decoder accepts. All bodies but that of CONNECT have one property section, and the two
directions then follow from what is known about property sections.
-/

namespace SkyTree.Wire

open Foundation PropertySet List Reader

structure Body (validUTF8 : Text → Bool) (X P : Type) [PropertySet P] where
  packet : PacketType
  fits : Fits P packet
  properties : X → Option P
  normalize : X → X
  /-- What the encoder asks of the body. -/
  Valid : X → Prop
  /-- What the fixed header says about the packet. -/
  Header : X → Prop
  layout : X → List UInt8 → List UInt8
  encode : X → Except WireError (List UInt8)
  decode : Reader WireError X
  properties_normalize : ∀ x, properties (normalize x) = normalizeProperties (properties x) := by
    intro x
    rfl
  valid_normalize : ∀ {x}, Valid x → Valid (normalize x) := by
    intro x valid
    exact valid
  header_normalize : ∀ {x}, Header x → Header (normalize x) := by
    intro x header
    exact header
  layout_normalize : ∀ x, layout (normalize x) = layout x := by
    intro x
    rfl
  normalize_eq_self : ∀ {x p}, properties x = some p → PropertySet.normalize p = p → normalize x = x
  layout_mono : ∀ x {shorter longer : List UInt8}, 1 ≤ shorter.length →
    shorter.length ≤ longer.length → (layout x shorter).length ≤ (layout x longer).length
  encode_eq_ok : ∀ {x bytes}, encode x = .ok bytes ↔ Valid x ∧
    ∃ props, encodeProperties validUTF8 packet (properties x) = .ok props ∧ bytes = layout x props
  decode_layout : ∀ {x p props}, Valid x → Header x → properties x = some p →
    SectionOf validUTF8 packet props p → decode (layout x props) = .ok (x, [])
  of_decode : ∀ {x input}, decode input = .ok (x, []) → Valid x ∧ Header x ∧
    ∃ p props, properties x = some p ∧ SectionOf validUTF8 packet props p ∧
      (layout x props).length ≤ input.length

namespace Body

variable {utf8 : Text → Bool} {X P : Type} [PropertySet P] (body : Body utf8 X P)
  {x : X} {bytes inp : List UInt8}

theorem decode_of_encode (hh : body.Header x) (he : body.encode x = .ok bytes) :
    body.decode bytes = .ok (body.normalize x, []) := by
  obtain ⟨hv, props, hw, rfl⟩ := body.encode_eq_ok.mp he
  rw [← body.layout_normalize]
  exact body.decode_layout (body.valid_normalize hv) (body.header_normalize hh)
    (body.properties_normalize x) (sectionOf_of_encode body.fits hw)

theorem encode_of_decode (hd : body.decode inp = .ok (x, [])) :
    body.normalize x = x ∧ body.Header x ∧
      ∃ out, body.encode x = .ok out ∧ out.length ≤ inp.length := by
  obtain ⟨hv, hh, p, props, has, ha, hs⟩ := body.of_decode hd
  obtain ⟨again, hw, hb⟩ := ha.encode
  have hp : 1 ≤ again.length := by
    obtain ⟨-, -, rfl⟩ := encodeProperties_eq_ok.mp hw
    rw [length_append]
    exact (vbiDigits_length_pos (by decide)).trans_le (Nat.le_add_right _ _)
  refine ⟨body.normalize_eq_self has ha.normal, hh, body.layout x again,
    body.encode_eq_ok.mpr ⟨hv, again, has ▸ hw, rfl⟩, ?_⟩
  exact (body.layout_mono x hp hb).trans hs

end Body

variable {utf8 : Text → Bool} {inp rest bytes : List UInt8}

theorem forall_uint8 {P : UInt8 → Prop} (all : ∀ byte : BitVec 8, P (UInt8.ofBitVec byte))
    (byte : UInt8) : P byte :=
  all byte.toBitVec

variable {pkt : PacketType}

theorem validatePacketID_eq_ok {packetID : UInt16} {nothing : Unit} :
    validatePacketID pkt packetID = .ok nothing ↔ packetID ≠ 0 := by
  rw [validatePacketID, ensure_eq_ok, decide_eq_true_eq]

theorem validateReason_eq_ok {code : UInt8} {nothing : Unit} :
    validateReason pkt code = .ok nothing ↔ validReason pkt code = true :=
  ensure_eq_ok

theorem normalizeProperties_eq_self {P : Type} [PropertySet P] {props : Option P} {p : P}
    (has : props = some p) (hn : PropertySet.normalize p = p) :
    normalizeProperties props = props := by
  rw [has, normalizeProperties, Option.getD_some, hn]

/-! ## CONNACK -/

theorem acknowledgeFlags_iff (byte : UInt8) (sessionPresent : Bool) :
    (byte &&& 0xfe == 0) = true ∧ sessionPresent = (byte &&& 0x01 != 0) ↔
      byte = if sessionPresent then 1 else 0 := by
  revert byte
  apply forall_uint8
  cases sessionPresent <;> decide +kernel

def ConnAck.Valid (p : ConnAck) : Prop :=
  validReason .connack p.reasonCode = true ∧ (p.reasonCode == 0 || !p.sessionPresent) = true

def ConnAck.layout (p : ConnAck) (props : List UInt8) : List UInt8 :=
  [if p.sessionPresent then 1 else 0, p.reasonCode] ++ props

theorem decodeConnack_eq_ok {p : ConnAck} : decodeConnack utf8 inp = .ok (p, rest) ↔ p.Valid ∧
      ∃ q props, p.properties = some q ∧ SectionOf utf8 .connack props q ∧
        inp = p.layout props ++ rest := by
  simp only [decodeConnack, bind_eq_ok, lift_eq_ok, pure_eq_ok, readByte_eq_ok,
    ensure_eq_ok, validateReason_eq_ok, validateSessionPresent, decodeProperties_eq_ok]
  constructor
  · rintro ⟨flags, _, rfl, -, _, ⟨hr, rfl⟩, reason, _, rfl, -, _, ⟨hv, rfl⟩, -, _,
      ⟨hs, rfl⟩, q, _, ⟨props, ha, rfl⟩, rfl, rfl⟩
    refine ⟨⟨hv, hs⟩, q, props, rfl, ha, ?_⟩
    rw [ConnAck.layout, ← (acknowledgeFlags_iff flags _).mp ⟨hr, rfl⟩]
    rfl
  · rintro ⟨⟨hv, hs⟩, q, props, has, ha, rfl⟩
    obtain ⟨hr, hp⟩ := (acknowledgeFlags_iff _ p.sessionPresent).mpr rfl
    refine ⟨_, _, rfl, (), _, ⟨hr, rfl⟩, _, _, rfl, (), _, ⟨hv, rfl⟩, (), _,
      ⟨hp ▸ hs, rfl⟩, q, _, ⟨props, ha, rfl⟩, ?_, rfl⟩
    rw [← hp, ← has]

theorem encodeConnack_eq_ok {p : ConnAck} : encodeConnack utf8 p = .ok bytes ↔ p.Valid ∧
      ∃ props, encodeProperties utf8 .connack p.properties = .ok props ∧
        bytes = p.layout props := by
  simp only [encodeConnack, exceptBind_eq_ok, validateReason_eq_ok, validateSessionPresent,
    ensure_eq_ok]
  constructor
  · rintro ⟨-, hv, -, hs, props, hw, he⟩
    exact ⟨⟨hv, hs⟩, props, hw, (Except.ok.inj he).symm⟩
  · rintro ⟨⟨hv, hs⟩, props, hw, rfl⟩
    exact ⟨(), hv, (), hs, props, hw, rfl⟩

def connackBody (validUTF8 : Text → Bool) : Body validUTF8 ConnAck ConnAckProperties where
  packet := .connack
  fits := by decide
  properties := ConnAck.properties
  normalize := ConnAck.normalize
  Valid := ConnAck.Valid
  Header _ := True
  layout := ConnAck.layout
  encode := encodeConnack validUTF8
  decode := decodeConnack validUTF8
  normalize_eq_self has normal := by
    rw [ConnAck.normalize, normalizeProperties_eq_self has normal]
  layout_mono x _ _ _ bound := by
    simp only [ConnAck.layout, length_append]
    omega
  encode_eq_ok := encodeConnack_eq_ok
  decode_layout valid _ has accepted :=
    decodeConnack_eq_ok.mpr ⟨valid, _, _, has, accepted, (append_nil _).symm⟩
  of_decode decoded := by
    obtain ⟨valid, q, props, has, accepted, rfl⟩ := decodeConnack_eq_ok.mp decoded
    exact ⟨valid, trivial, q, props, has, accepted, by rw [append_nil]⟩

/-! ## PUBLISH -/

def Publish.topicAlias (p : Publish) : Option UInt16 :=
  p.properties.bind PublishProperties.topicAlias

structure Publish.Valid (validUTF8 : Text → Bool) (p : Publish) : Prop where
  reserved : p.qos ≠ 3
  without : p.qos = 0 → p.packetID = 0
  numbered : 0 < p.qos → p.packetID ≠ 0
  topic : validatePublishTopic p.topic p.topicAlias = .ok ()
  text : ValidText validUTF8 p.topic

structure Publish.Header (flags : UInt8) (p : Publish) : Prop where
  qos : p.qos = (flags >>> 1) &&& 0x03
  duplicate : p.duplicate = (flags &&& 0x08 != 0)
  retain : p.retain = (flags &&& 0x01 != 0)

def Publish.layout (p : Publish) (props : List UInt8) : List UInt8 :=
  prefixed p.topic ++ (if 0 < p.qos then writeUint16 p.packetID else []) ++ props ++ p.payload

theorem encodePublish_eq_ok {p : Publish} : encodePublish utf8 p = .ok bytes ↔ p.Valid utf8 ∧
      ∃ props, encodeProperties utf8 .publish p.properties = .ok props ∧
        bytes = p.layout props := by
  simp only [encodePublish, exceptBind_eq_ok, ensure_eq_ok, writeString_eq_ok]
  constructor
  · rintro ⟨-, hr, -, without, -, hn, ⟨⟩, topic, _, ⟨ht, rfl⟩, props, hw, he⟩
    refine ⟨⟨?_, ?_, ?_, topic, ht⟩, props, hw, (Except.ok.inj he).symm⟩
    · simpa using hr
    · intro hz
      simpa [hz] using without
    · intro hp
      simpa [hp] using hn
  · rintro ⟨hv, props, hw, rfl⟩
    refine ⟨(), ?_, (), ?_, (), ?_, (), hv.topic, _, ⟨hv.text, rfl⟩, props, hw, rfl⟩
    · simpa using hv.reserved
    · by_cases hz : p.qos = 0
      · simpa [hz] using hv.without hz
      · simp [hz]
    · by_cases hp : 0 < p.qos
      · simpa [hp] using hv.numbered hp
      · simp [hp]

theorem decodePublish_eq_ok {flags : UInt8} {p : Publish} :
    decodePublish utf8 flags inp = .ok (p, rest) ↔ p.Valid utf8 ∧ p.Header flags ∧ rest = [] ∧
        ∃ q props, p.properties = some q ∧ SectionOf utf8 .publish props q ∧
          inp = p.layout props := by
  simp only [decodePublish, bind_eq_ok, lift_eq_ok, pure_eq_ok, ensure_eq_ok,
    readString_eq_ok, optional_eq_ok, readUint16_eq_ok, validatePacketID_eq_ok,
    decodeProperties_eq_ok, remainder_eq_ok]
  constructor
  · rintro ⟨-, _, ⟨hr, rfl⟩, topic, _, ⟨ht, rfl⟩, packetID, _, hi, q, _,
      ⟨props, ha, rfl⟩, ⟨⟩, _, ⟨hn, rfl⟩, payload, _, ⟨rfl, rfl⟩, rfl, rfl⟩
    obtain ⟨num, _, _, rfl, -, _, ⟨nonzero, rfl⟩, rfl, rfl⟩ | ⟨hu, rfl, rfl⟩ := hi
    · have hp := of_decide_eq_true num
      refine ⟨⟨by simpa using hr, ?_, fun _ => nonzero, hn, ht⟩, ⟨rfl, rfl, rfl⟩, rfl, q,
        props, rfl, ha, ?_⟩
      · intro hz
        exact absurd hz (UInt8.pos_iff_ne_zero.mp hp)
      · simp [Publish.layout, hp]
    · have hz := of_decide_eq_false hu
      refine ⟨⟨by simpa using hr, fun _ => rfl, fun hp => absurd hp hz, hn, ht⟩,
        ⟨rfl, rfl, rfl⟩, rfl, q, props, rfl, ha, ?_⟩
      simp [Publish.layout, hz]
  · rintro ⟨hv, hh, rfl, q, props, has, ha, rfl⟩
    obtain ⟨qos, hd, retain⟩ := hh
    have hr := hv.reserved
    have hn := hv.topic
    rw [Publish.topicAlias, has, Option.bind_some] at hn
    rw [qos] at hr
    refine ⟨(), _, ⟨by simpa using hr, rfl⟩, p.topic,
      (if 0 < p.qos then writeUint16 p.packetID else []) ++ (props ++ p.payload), ⟨hv.text, ?_⟩,
      p.packetID, props ++ p.payload, ?_, q, p.payload, ⟨props, ha, rfl⟩, (), p.payload,
      ⟨hn, rfl⟩, p.payload, [], ⟨rfl, rfl⟩, ?_, rfl⟩
    · simp [Publish.layout]
    · by_cases hp : 0 < p.qos
      · rw [if_pos hp]
        exact .inl ⟨by simpa [qos] using hp, p.packetID, _, rfl, (), _,
          ⟨hv.numbered hp, rfl⟩, rfl, rfl⟩
      · rw [if_neg hp]
        have hz : p.qos = 0 := by
          by_contra nonzero
          exact hp (UInt8.pos_iff_ne_zero.mpr nonzero)
        exact .inr ⟨by simpa [qos] using hp, hv.without hz, rfl⟩
    · rw [← qos, ← hd, ← retain, ← has]

def publishBody (validUTF8 : Text → Bool) (flags : UInt8) :
    Body validUTF8 Publish PublishProperties where
  packet := .publish
  fits := by decide
  properties := Publish.properties
  normalize := Publish.normalize
  Valid := Publish.Valid validUTF8
  Header := Publish.Header flags
  layout := Publish.layout
  encode := encodePublish validUTF8
  decode := decodePublish validUTF8 flags
  valid_normalize {p} valid := by
    have kept : p.normalize.topicAlias = p.topicAlias := by
      rw [Publish.topicAlias, Publish.topicAlias, Publish.normalize]
      cases p.properties <;> rfl
    exact ⟨valid.reserved, valid.without, valid.numbered, kept ▸ valid.topic, valid.text⟩
  header_normalize header := ⟨header.qos, header.duplicate, header.retain⟩
  normalize_eq_self has normal := by
    rw [Publish.normalize, normalizeProperties_eq_self has normal]
  layout_mono x _ _ _ bound := by
    simp only [Publish.layout, length_append]
    omega
  encode_eq_ok := encodePublish_eq_ok
  decode_layout valid header has accepted :=
    decodePublish_eq_ok.mpr ⟨valid, header, rfl, _, _, has, accepted, rfl⟩
  of_decode decoded := by
    obtain ⟨valid, header, -, q, props, has, accepted, rfl⟩ := decodePublish_eq_ok.mp decoded
    exact ⟨valid, header, q, props, has, accepted, le_rfl⟩

/-! ## Reasons -/

section Reason

variable {P : Type} [PropertySet P] {pkt : PacketType} {reason : UInt8} {p : P}
  {props : List UInt8}

theorem length_encodeReason : (encodeReason reason props).length =
    if reason = 0 ∧ props.length = 1 then 0
    else 1 + if 1 < props.length then props.length else 0 := by
  rw [encodeReason]
  split_ifs with ho hl
  · rfl
  · rw [length_cons, Nat.add_comm]
  · rfl

theorem encodeReason_mono {longer : List UInt8} (hp : 1 ≤ props.length)
    (hb : props.length ≤ longer.length) :
    (encodeReason reason props).length ≤ (encodeReason reason longer).length := by
  rw [length_encodeReason, length_encodeReason]
  by_cases hz : reason = 0
  · simp only [hz, true_and]
    split_ifs <;> omega
  · simp only [hz, false_and, if_false]
    split_ifs <;> omega

theorem decodeReason_encodeReason (hv : validReason pkt reason = true)
    (ha : SectionOf utf8 pkt props p) :
    decodeReason utf8 pkt (encodeReason reason props) = .ok ((reason, p), []) := by
  simp only [decodeReason, bind_eq_ok, lift_eq_ok, pure_eq_ok,
    atEnd_eq_ok, optional_eq_ok, readByte_eq_ok, validateReason_eq_ok,
    decodeProperties_eq_ok]
  by_cases ho : reason = 0 ∧ props.length = 1
  · obtain rfl := ha.eq_empty ho.2.le
    rw [encodeReason, if_pos ho, ho.1]
    exact ⟨_, _, ⟨rfl, rfl⟩, 0, [], .inr ⟨rfl, rfl, rfl⟩, _, _, ⟨rfl, rfl⟩, empty, [],
      .inr ⟨rfl, rfl, rfl⟩, rfl, rfl⟩
  · rw [encodeReason, if_neg ho]
    by_cases hl : 1 < props.length
    · have hw : props.isEmpty = false := by
        cases props with
        | nil => cases hl
        | cons _ _ => rfl
      rw [if_pos hl]
      exact ⟨_, _, ⟨rfl, rfl⟩, reason, props,
        .inl ⟨rfl, reason, props, rfl, (), _, ⟨hv, rfl⟩, rfl, rfl⟩, _, _, ⟨rfl, rfl⟩, p, [],
        .inl ⟨by rw [hw]; rfl, props, ha, (append_nil _).symm⟩, rfl, rfl⟩
    · obtain rfl := ha.eq_empty (Nat.le_of_not_lt hl)
      rw [if_neg hl]
      exact ⟨_, _, ⟨rfl, rfl⟩, reason, [],
        .inl ⟨rfl, reason, [], rfl, (), _, ⟨hv, rfl⟩, rfl, rfl⟩, _, _, ⟨rfl, rfl⟩, empty, [],
        .inr ⟨rfl, rfl, rfl⟩, rfl, rfl⟩

theorem of_decodeReason (done : validReason pkt 0 = true)
    (hd : decodeReason utf8 pkt inp = .ok ((reason, p), [])) :
    validReason pkt reason = true ∧ ∃ props, SectionOf utf8 pkt props p ∧
        (encodeReason reason props).length ≤ inp.length := by
  simp only [decodeReason, bind_eq_ok, lift_eq_ok, pure_eq_ok,
    atEnd_eq_ok, optional_eq_ok, readByte_eq_ok, validateReason_eq_ok,
    decodeProperties_eq_ok] at hd
  obtain ⟨_, _, ⟨rfl, rfl⟩, code, middle, first, _, _, ⟨rfl, rfl⟩, q, _, hs, he, rfl⟩ := hd
  obtain ⟨rfl, rfl⟩ := Prod.mk.inj he
  obtain ⟨-, _, _, rfl, -, _, ⟨hv, rfl⟩, rfl, rfl⟩ | ⟨nothing, rfl, rfl⟩ := first
  · obtain ⟨-, props, ha, rfl⟩ | ⟨-, rfl, -⟩ := hs
    · refine ⟨hv, props, ha, ?_⟩
      rw [length_encodeReason, append_nil, length_cons]
      split_ifs <;> omega
    · refine ⟨hv, [0], .nothing, ?_⟩
      rw [length_encodeReason, length_singleton, length_cons]
      split_ifs <;> omega
  · obtain ⟨hm, -⟩ | ⟨-, rfl, -⟩ := hs
    · rw [nothing] at hm
      cases hm
    · exact ⟨done, [0], .nothing, Nat.zero_le _⟩

end Reason

/-! ### PUBACK, PUBREC, PUBREL and PUBCOMP -/

def Ack.Valid (packet : PacketType) (p : Ack) : Prop :=
  p.packetID ≠ 0 ∧ validReason packet p.reasonCode = true

theorem encodeAck_eq_ok {p : Ack} : encodeAck utf8 pkt p = .ok bytes ↔ p.Valid pkt ∧
      ∃ props, encodeProperties utf8 pkt p.properties = .ok props ∧
        bytes = writeUint16 p.packetID ++ encodeReason p.reasonCode props := by
  simp only [encodeAck, exceptBind_eq_ok, validatePacketID_eq_ok, validateReason_eq_ok]
  constructor
  · rintro ⟨-, hn, -, hv, props, hw, he⟩
    exact ⟨⟨hn, hv⟩, props, hw, (Except.ok.inj he).symm⟩
  · rintro ⟨⟨hn, hv⟩, props, hw, rfl⟩
    exact ⟨(), hn, (), hv, props, hw, rfl⟩

theorem decodeAck_eq_ok {p : Ack} : decodeAck utf8 pkt inp = .ok (p, rest) ↔ p.packetID ≠ 0 ∧
      ∃ q more, p.properties = some q ∧ inp = writeUint16 p.packetID ++ more ∧
        decodeReason utf8 pkt more = .ok ((p.reasonCode, q), rest) := by
  simp only [decodeAck, bind_eq_ok, lift_eq_ok, pure_eq_ok, readUint16_eq_ok,
    validatePacketID_eq_ok, Prod.exists]
  constructor
  · rintro ⟨packetID, _, rfl, -, _, ⟨hn, rfl⟩, reason, q, _, hd, rfl, rfl⟩
    exact ⟨hn, q, _, rfl, rfl, hd⟩
  · rintro ⟨hn, q, more, has, rfl, hd⟩
    exact ⟨_, _, rfl, (), _, ⟨hn, rfl⟩, _, q, _, hd, by rw [← has], rfl⟩

def ackBody (validUTF8 : Text → Bool) (packet : PacketType) (fits : Fits ReasonProperties packet)
    (success : validReason packet 0 = true) : Body validUTF8 Ack ReasonProperties where
  packet := packet
  fits := fits
  properties := Ack.properties
  normalize := Ack.normalize
  Valid := Ack.Valid packet
  Header _ := True
  layout p props := writeUint16 p.packetID ++ encodeReason p.reasonCode props
  encode := encodeAck validUTF8 packet
  decode := decodeAck validUTF8 packet
  normalize_eq_self has normal := by
    rw [Ack.normalize, normalizeProperties_eq_self has normal]
  layout_mono x _ _ positive bound := by
    rw [length_append, length_append]
    exact Nat.add_le_add_left (encodeReason_mono positive bound) _
  encode_eq_ok := encodeAck_eq_ok
  decode_layout valid _ has accepted := decodeAck_eq_ok.mpr
    ⟨valid.1, _, _, has, rfl, decodeReason_encodeReason valid.2 accepted⟩
  of_decode decoded := by
    obtain ⟨numbered, q, more, has, rfl, decodedReason⟩ := decodeAck_eq_ok.mp decoded
    obtain ⟨valid, props, accepted, shorter⟩ := of_decodeReason success decodedReason
    refine ⟨⟨numbered, valid⟩, trivial, q, props, has, accepted, ?_⟩
    rw [length_append, length_append]
    exact Nat.add_le_add_left shorter _

/-! ### DISCONNECT and AUTH -/

theorem encodeReasonPacket_eq_ok {P : Type} [PropertySet P] {p : ReasonPacket P} :
    encodeReasonPacket utf8 pkt p = .ok bytes ↔ validReason pkt p.reasonCode = true ∧
      ∃ props, encodeProperties utf8 pkt p.properties = .ok props ∧
        bytes = encodeReason p.reasonCode props := by
  simp only [encodeReasonPacket, exceptBind_eq_ok, validateReason_eq_ok]
  constructor
  · rintro ⟨-, hv, props, hw, he⟩
    exact ⟨hv, props, hw, (Except.ok.inj he).symm⟩
  · rintro ⟨hv, props, hw, rfl⟩
    exact ⟨(), hv, props, hw, rfl⟩

theorem decodeReasonPacket_eq_ok {P : Type} [PropertySet P] {p : ReasonPacket P} :
    decodeReasonPacket utf8 pkt inp = .ok (p, rest) ↔ ∃ q, p.properties = some q ∧
        decodeReason utf8 pkt inp = .ok ((p.reasonCode, q), rest) := by
  simp only [decodeReasonPacket, bind_eq_ok, pure_eq_ok, Prod.exists]
  constructor
  · rintro ⟨reason, q, _, hd, rfl, rfl⟩
    exact ⟨q, rfl, hd⟩
  · rintro ⟨q, has, hd⟩
    exact ⟨_, q, _, hd, by rw [← has], rfl⟩

def reasonBody (validUTF8 : Text → Bool) (packet : PacketType) (P : Type) [PropertySet P]
    (fits : Fits P packet) (success : validReason packet 0 = true) :
    Body validUTF8 (ReasonPacket P) P where
  packet := packet
  fits := fits
  properties := ReasonPacket.properties
  normalize := ReasonPacket.normalize
  Valid p := validReason packet p.reasonCode = true
  Header _ := True
  layout p props := encodeReason p.reasonCode props
  encode := encodeReasonPacket validUTF8 packet
  decode := decodeReasonPacket validUTF8 packet
  normalize_eq_self has normal := by
    rw [ReasonPacket.normalize, normalizeProperties_eq_self has normal]
  layout_mono _ _ _ positive bound := encodeReason_mono positive bound
  encode_eq_ok := encodeReasonPacket_eq_ok
  decode_layout valid _ has accepted :=
    decodeReasonPacket_eq_ok.mpr ⟨_, has, decodeReason_encodeReason valid accepted⟩
  of_decode decoded := by
    obtain ⟨q, has, decodedReason⟩ := decodeReasonPacket_eq_ok.mp decoded
    obtain ⟨valid, props, accepted, shorter⟩ := of_decodeReason success decodedReason
    exact ⟨valid, trivial, q, props, has, accepted, shorter⟩

/-! ## SUBACK and UNSUBACK -/

def CodeList.Valid (packet : PacketType) (p : CodeList) : Prop :=
  p.packetID ≠ 0 ∧ validateReasons packet p.reasons = .ok ()

def CodeList.layout (p : CodeList) (props : List UInt8) : List UInt8 :=
  writeUint16 p.packetID ++ props ++ p.reasons

theorem encodeCodeList_eq_ok {p : CodeList} : encodeCodeList utf8 pkt p = .ok bytes ↔ p.Valid pkt ∧
      ∃ props, encodeProperties utf8 pkt p.properties = .ok props ∧ bytes = p.layout props := by
  simp only [encodeCodeList, exceptBind_eq_ok, validatePacketID_eq_ok]
  constructor
  · rintro ⟨-, hn, ⟨⟩, hv, props, hw, he⟩
    exact ⟨⟨hn, hv⟩, props, hw, (Except.ok.inj he).symm⟩
  · rintro ⟨⟨hn, hv⟩, props, hw, rfl⟩
    exact ⟨(), hn, (), hv, props, hw, rfl⟩

theorem decodeCodeList_eq_ok {p : CodeList} :
    decodeCodeList utf8 pkt inp = .ok (p, rest) ↔ p.Valid pkt ∧ rest = [] ∧
      ∃ q props, p.properties = some q ∧ SectionOf utf8 pkt props q ∧ inp = p.layout props := by
  simp only [decodeCodeList, bind_eq_ok, lift_eq_ok, pure_eq_ok,
    readUint16_eq_ok, validatePacketID_eq_ok, decodeProperties_eq_ok, remainder_eq_ok]
  constructor
  · rintro ⟨packetID, _, rfl, -, _, ⟨hn, rfl⟩, q, _, ⟨props, ha, rfl⟩, reasons, _,
      ⟨rfl, rfl⟩, ⟨⟩, _, ⟨hv, rfl⟩, rfl, rfl⟩
    exact ⟨⟨hn, hv⟩, rfl, q, props, rfl, ha, (append_assoc _ _ _).symm⟩
  · rintro ⟨⟨hn, hv⟩, rfl, q, props, has, ha, rfl⟩
    exact ⟨_, _, append_assoc _ _ _, (), _, ⟨hn, rfl⟩, q, _, ⟨props, ha, rfl⟩, _, _,
      ⟨rfl, rfl⟩, (), _, ⟨hv, rfl⟩, by rw [← has], rfl⟩

def codeListBody (validUTF8 : Text → Bool) (packet : PacketType)
    (fits : Fits ReasonProperties packet) : Body validUTF8 CodeList ReasonProperties where
  packet := packet
  fits := fits
  properties := CodeList.properties
  normalize := CodeList.normalize
  Valid := CodeList.Valid packet
  Header _ := True
  layout := CodeList.layout
  encode := encodeCodeList validUTF8 packet
  decode := decodeCodeList validUTF8 packet
  normalize_eq_self has normal := by
    rw [CodeList.normalize, normalizeProperties_eq_self has normal]
  layout_mono x _ _ _ bound := by
    simp only [CodeList.layout, length_append]
    omega
  encode_eq_ok := encodeCodeList_eq_ok
  decode_layout valid _ has accepted :=
    decodeCodeList_eq_ok.mpr ⟨valid, rfl, _, _, has, accepted, rfl⟩
  of_decode decoded := by
    obtain ⟨valid, -, q, props, has, accepted, rfl⟩ := decodeCodeList_eq_ok.mp decoded
    exact ⟨valid, trivial, q, props, has, accepted, le_rfl⟩

/-! ## SUBSCRIBE and UNSUBSCRIBE -/

theorem le_two_cases {value : UInt8} (hb : value ≤ 2) : value = 0 ∨ value = 1 ∨ value = 2 := by
  have all : ∀ value : UInt8, value ≤ 2 → value = 0 ∨ value = 1 ∨ value = 2 :=
    forall_uint8 (by decide +kernel)
  exact all value hb

structure SubOptions.Valid (validUTF8 : Text → Bool) (sub : SubOptions) : Prop where
  qos : sub.qos ≤ 2
  retainHandling : sub.retainHandling ≤ 2
  filter : validateTopicFilter .subscribe "topic filter" sub.topic = .ok ()
  text : ValidText validUTF8 sub.topic

def SubOptions.written (sub : SubOptions) : List UInt8 := prefixed sub.topic ++ [sub.pack]

theorem SubOptions.unpack_pack {sub : SubOptions} (qos : sub.qos ≤ 2)
    (rh : sub.retainHandling ≤ 2) :
    SubOptions.unpack sub.topic sub.pack = sub ∧ (sub.pack &&& 0xc0 == 0) = true := by
  -- the topic plays no part
  have hc : ∀ qos handling : UInt8, qos ≤ 2 → handling ≤ 2 → ∀ noLocal asPublished : Bool,
      SubOptions.unpack [] (SubOptions.pack ⟨[], qos, handling, noLocal, asPublished⟩) =
        ⟨[], qos, handling, noLocal, asPublished⟩ ∧
      (SubOptions.pack ⟨[], qos, handling, noLocal, asPublished⟩ &&& 0xc0 == 0) = true := by
    intro qos handling qosBound bound
    obtain rfl | rfl | rfl := le_two_cases qosBound <;>
      obtain rfl | rfl | rfl := le_two_cases bound <;> decide
  obtain ⟨hu, hr⟩ := hc _ _ qos rh sub.noLocal sub.retainAsPublished
  exact ⟨congrArg (fun found : SubOptions => { found with topic := sub.topic }) hu, hr⟩

theorem SubOptions.pack_unpack (topic : Text) {options : UInt8}
    (hr : (options &&& 0xc0 == 0) = true) : (SubOptions.unpack topic options).pack = options := by
  have hc : ∀ options : UInt8, (options &&& 0xc0 == 0) = true →
      (SubOptions.unpack [] options).pack = options :=
    forall_uint8 (by decide +kernel)
  exact hc options hr

theorem le_two_of_masked {value : UInt8} (hne : (value &&& 0x03 != 3) = true) :
    value &&& 0x03 ≤ 2 := by
  have all : ∀ value : UInt8, (value &&& 0x03 != 3) = true → value &&& 0x03 ≤ 2 :=
    forall_uint8 (by decide +kernel)
  exact all value hne

theorem decodeSubOptions_exact :
    (decodeSubOptions utf8).Exact (SubOptions.Valid utf8) SubOptions.written := by
  intro inp sub rest
  simp only [decodeSubOptions, bind_eq_ok, lift_eq_ok, pure_eq_ok,
    readString_eq_ok, readByte_eq_ok, ensure_eq_ok]
  constructor
  · rintro ⟨topic, _, ⟨ht, rfl⟩, options, _, rfl, -, _, ⟨qos, rfl⟩, -, _, ⟨hh, rfl⟩, -, _,
      ⟨hr, rfl⟩, ⟨⟩, _, ⟨hf, rfl⟩, rfl, rfl⟩
    refine ⟨⟨le_two_of_masked qos, le_two_of_masked hh, hf, ht⟩, ?_⟩
    rw [SubOptions.written, SubOptions.pack_unpack topic hr, append_assoc]
    rfl
  · rintro ⟨hv, rfl⟩
    obtain ⟨hu, hr⟩ := SubOptions.unpack_pack hv.qos hv.retainHandling
    have notThree : ∀ {value : UInt8}, value ≤ 2 → (value != 3) = true := by
      intro value hb
      obtain rfl | rfl | rfl := le_two_cases hb <;> rfl
    refine ⟨sub.topic, _, ⟨hv.text, append_assoc _ _ _⟩, sub.pack, rest, rfl, (), _,
      ⟨?_, rfl⟩, (), _, ⟨?_, rfl⟩, (), _, ⟨hr, rfl⟩, (), _, ⟨hv.filter, rfl⟩,
      hu.symm, rfl⟩
    · rw [hu]
      exact notThree hv.qos
    · rw [hu]
      exact notThree hv.retainHandling

theorem encodeSubOptions_eq_ok {sub : SubOptions} :
    encodeSubOptions utf8 sub = .ok bytes ↔ sub.Valid utf8 ∧ bytes = sub.written := by
  simp only [encodeSubOptions, validateSubOptionsForEncode, exceptBind_eq_ok, ensure_eq_ok,
    decide_eq_true_eq, writeString_eq_ok]
  constructor
  · rintro ⟨⟨⟩, hf, -, ⟨-, qos, hh⟩, _, ⟨ht, rfl⟩, he⟩
    exact ⟨⟨qos, hh, hf, ht⟩, (Except.ok.inj he).symm⟩
  · rintro ⟨hv, rfl⟩
    exact ⟨(), hv.filter, (), ⟨(), hv.qos, hv.retainHandling⟩, _, ⟨hv.text, rfl⟩, rfl⟩

def ValidTopic (validUTF8 : Text → Bool) (topic : Text) : Prop :=
  validateTopicFilter .unsubscribe "topic filter" topic = .ok () ∧ ValidText validUTF8 topic

theorem decodeTopic_exact : (decodeTopic utf8).Exact (ValidTopic utf8) prefixed := by
  intro inp topic rest
  simp only [decodeTopic, bind_eq_ok, lift_eq_ok, pure_eq_ok, readString_eq_ok]
  constructor
  · rintro ⟨topic, _, ⟨ht, rfl⟩, ⟨⟩, _, ⟨hf, rfl⟩, rfl, rfl⟩
    exact ⟨⟨hf, ht⟩, rfl⟩
  · rintro ⟨⟨hf, ht⟩, rfl⟩
    exact ⟨topic, rest, ⟨ht, rfl⟩, (), _, ⟨hf, rfl⟩, rfl, rfl⟩

theorem encodeTopic_eq_ok {topic : Text} :
    encodeTopic utf8 topic = .ok bytes ↔ ValidTopic utf8 topic ∧ bytes = prefixed topic := by
  simp only [encodeTopic, exceptBind_eq_ok, writeString_eq_ok]
  constructor
  · rintro ⟨⟨⟩, hf, ht, rfl⟩
    exact ⟨⟨hf, ht⟩, rfl⟩
  · rintro ⟨⟨hf, ht⟩, rfl⟩
    exact ⟨(), hf, ht, rfl⟩

theorem prefixed_ne_nil (value : Text) : prefixed value ≠ [] := cons_ne_nil _ _

theorem validateFilters_eq_ok {count : Nat} {nothing : Unit} :
    validateFilters pkt count = .ok nothing ↔ count ≠ 0 := by
  rw [validateFilters, ensure_eq_ok, decide_eq_true_eq]

section FilterList

variable {F P : Type} [PropertySet P] {ValidFilter : F → Prop} {written : F → List UInt8}

structure FilterList.Valid (ValidFilter : F → Prop) (p : FilterList F P) : Prop where
  numbered : p.packetID ≠ 0
  some : p.filters.length ≠ 0
  filters : ∀ filter ∈ p.filters, ValidFilter filter

def FilterList.layout (written : F → List UInt8) (p : FilterList F P) (props : List UInt8) :
    List UInt8 :=
  writeUint16 p.packetID ++ props ++ p.filters.flatMap written

theorem encodeFilterList_eq_ok {encodeFilter : F → Except WireError (List UInt8)}
    (exact : ∀ filter out,
      encodeFilter filter = .ok out ↔ ValidFilter filter ∧ out = written filter)
    {p : FilterList F P} : encodeFilterList utf8 pkt encodeFilter p = .ok bytes ↔
      p.Valid ValidFilter ∧ ∃ props, encodeProperties utf8 pkt p.properties = .ok props ∧
        bytes = p.layout written props := by
  simp only [encodeFilterList, exceptBind_eq_ok, validatePacketID_eq_ok, validateFilters_eq_ok,
    writeAll_eq_ok fun filter _ out => exact filter out]
  constructor
  · rintro ⟨-, numbered, -, some, props, encoded, _, ⟨filters, rfl⟩, done⟩
    exact ⟨⟨numbered, some, filters⟩, props, encoded, (Except.ok.inj done).symm⟩
  · rintro ⟨valid, props, encoded, rfl⟩
    exact ⟨(), valid.numbered, (), valid.some, props, encoded, _, ⟨valid.filters, rfl⟩, rfl⟩

theorem decodeFilterList_eq_ok {decodeFilter : Reader WireError F}
    (exact : decodeFilter.Exact ValidFilter written) (nonempty : ∀ filter, written filter ≠ [])
    {p : FilterList F P} : decodeFilterList utf8 pkt decodeFilter inp = .ok (p, rest) ↔
      p.Valid ValidFilter ∧ rest = [] ∧ ∃ q props, p.properties = some q ∧
        SectionOf utf8 pkt props q ∧ inp = p.layout written props := by
  simp only [decodeFilterList, bind_eq_ok, lift_eq_ok, pure_eq_ok, readUint16_eq_ok,
    validatePacketID_eq_ok, decodeProperties_eq_ok, validateFilters_eq_ok,
    many_eq_ok exact nonempty]
  constructor
  · rintro ⟨packetID, _, rfl, -, _, ⟨numbered, rfl⟩, q, _, ⟨props, accepted, rfl⟩, filters, _,
      ⟨valid, rfl, rfl⟩, -, _, ⟨some, rfl⟩, rfl, rfl⟩
    exact ⟨⟨numbered, some, valid⟩, rfl, q, props, rfl, accepted, (append_assoc _ _ _).symm⟩
  · rintro ⟨valid, rfl, q, props, has, accepted, rfl⟩
    exact ⟨_, _, append_assoc _ _ _, (), _, ⟨valid.numbered, rfl⟩, q, _,
      ⟨props, accepted, rfl⟩, _, _, ⟨valid.filters, rfl, rfl⟩, (), _, ⟨valid.some, rfl⟩,
      by rw [← has], rfl⟩

def filterListBody (packet : PacketType) (fits : Fits P packet) (decodeFilter : Reader WireError F)
    (encodeFilter : F → Except WireError (List UInt8))
    (decodes : decodeFilter.Exact ValidFilter written) (nonempty : ∀ filter, written filter ≠ [])
    (encodes : ∀ filter out,
      encodeFilter filter = .ok out ↔ ValidFilter filter ∧ out = written filter) :
    Body utf8 (FilterList F P) P where
  packet := packet
  fits := fits
  properties := FilterList.properties
  normalize := FilterList.normalize
  Valid := FilterList.Valid ValidFilter
  Header _ := True
  layout := FilterList.layout written
  encode := encodeFilterList utf8 packet encodeFilter
  decode := decodeFilterList utf8 packet decodeFilter
  valid_normalize valid := ⟨valid.numbered, valid.some, valid.filters⟩
  normalize_eq_self has normal := by
    rw [FilterList.normalize, normalizeProperties_eq_self has normal]
  layout_mono x _ _ _ bound := by
    simp only [FilterList.layout, length_append]
    omega
  encode_eq_ok := encodeFilterList_eq_ok encodes
  decode_layout valid _ has accepted :=
    (decodeFilterList_eq_ok decodes nonempty).mpr ⟨valid, rfl, _, _, has, accepted, rfl⟩
  of_decode decoded := by
    obtain ⟨valid, -, q, props, has, accepted, rfl⟩ :=
      (decodeFilterList_eq_ok decodes nonempty).mp decoded
    exact ⟨valid, trivial, q, props, has, accepted, le_rfl⟩

end FilterList

def subscribeBody (validUTF8 : Text → Bool) : Body validUTF8 Subscribe SubscribeProperties :=
  filterListBody .subscribe (by decide) (decodeSubOptions validUTF8) (encodeSubOptions validUTF8)
    decodeSubOptions_exact
    (fun sub => append_ne_nil_of_left_ne_nil (prefixed_ne_nil sub.topic) _)
    fun _ _ => encodeSubOptions_eq_ok

def unsubscribeBody (validUTF8 : Text → Bool) :
    Body validUTF8 Unsubscribe UnsubscribeProperties :=
  filterListBody .unsubscribe (by decide) (decodeTopic validUTF8) (encodeTopic validUTF8)
    decodeTopic_exact prefixed_ne_nil fun _ _ => encodeTopic_eq_ok

/-! ## CONNECT -/

structure ConnectFlags.Valid (f : ConnectFlags) : Prop where
  qos : f.willQOS ≤ 2
  noQoS : (f.willFlag || f.willQOS == 0) = true
  noRetain : (f.willFlag || !f.willRetain) = true
  password : (!f.passwordFlag || f.usernameFlag) = true

theorem ConnectFlags.packFlags_ofByte {byte : UInt8} (hr : (byte &&& 0x01 == 0) = true)
    (hh : ((ofByte byte).willFlag || (ofByte byte).willQOS == 0) = true)
    (retain : ((ofByte byte).willFlag || !(ofByte byte).willRetain) = true) :
    (ofByte byte).packFlags = byte := by
  have hc : ∀ byte : UInt8, (byte &&& 0x01 == 0) = true →
      ((ofByte byte).willFlag || (ofByte byte).willQOS == 0) = true →
      ((ofByte byte).willFlag || !(ofByte byte).willRetain) = true →
      (ofByte byte).packFlags = byte :=
    forall_uint8 (by decide +kernel)
  exact hc byte hr hh retain

theorem ConnectFlags.ofByte_packFlags {f : ConnectFlags} (hv : f.Valid) :
    ofByte f.packFlags = f ∧ (f.packFlags &&& 0x01 == 0) = true := by
  obtain ⟨cleanStart, willFlag, willQOS, willRetain, passwordFlag, usernameFlag⟩ := f
  obtain ⟨qos, hh, retain, -⟩ := hv
  obtain rfl | rfl | rfl := le_two_cases qos <;>
    revert cleanStart willFlag willRetain passwordFlag usernameFlag <;> decide

theorem unpackConnectFlags_eq_ok {byte : UInt8} {f : ConnectFlags} :
    unpackConnectFlags byte = .ok f ↔ f.Valid ∧ byte = f.packFlags := by
  simp only [unpackConnectFlags, validateConnectFlags, validatePasswordFlag, exceptBind_eq_ok,
    ensure_eq_ok]
  constructor
  · rintro ⟨-, hr, -, ⟨-, hh, noRet⟩, -, ht, -, hp, he⟩
    obtain rfl := Except.ok.inj he
    exact ⟨⟨le_two_of_masked ht, hh, noRet, hp⟩, (ConnectFlags.packFlags_ofByte hr hh noRet).symm⟩
  · rintro ⟨hv, rfl⟩
    obtain ⟨hu, hr⟩ := ConnectFlags.ofByte_packFlags hv
    rw [hu]
    have ht : (f.willQOS != 3) = true := by
      obtain hz | one | two := le_two_cases hv.qos
      · rw [hz]; rfl
      · rw [one]; rfl
      · rw [two]; rfl
    exact ⟨(), hr, (), ⟨(), hv.noQoS, hv.noRetain⟩, (), ht, (), hv.password, rfl⟩

theorem writeOptional_eq_ok {present : Bool} {write : Except WireError (List UInt8)} {valid : Prop}
    {written : List UInt8} (exact : ∀ bytes, write = .ok bytes ↔ valid ∧ bytes = written) :
    writeOptional present write = .ok bytes ↔
      (present = true → valid) ∧ bytes = if present then written else [] := by
  cases present with
  | false => simp [writeOptional, eq_comm]
  | true => simp [writeOptional, exact]

structure ValidWill (validUTF8 : Text → Bool) (topic message : Text) : Prop where
  name : validateTopicName .connect "will topic" topic false = .ok ()
  text : ValidText validUTF8 topic
  message : message.length ≤ 65535

theorem decodeWill_eq_ok {will : Option PublishProperties × Text × Text} :
    decodeWill utf8 inp = .ok (will, rest) ↔ ValidWill utf8 will.2.1 will.2.2 ∧
      ∃ w props, will.1 = some w ∧ SectionOf utf8 .willProperties props w ∧
        inp = props ++ (prefixed will.2.1 ++ (prefixed will.2.2 ++ rest)) := by
  obtain ⟨properties, topic, message⟩ := will
  simp only [decodeWill, bind_eq_ok, lift_eq_ok, pure_eq_ok, readString_eq_ok,
    readBinary_eq_ok, decodeProperties_eq_ok]
  constructor
  · rintro ⟨w, _, ⟨props, ha, rfl⟩, _, _, ⟨ht, rfl⟩, ⟨⟩, _, ⟨hn, rfl⟩, _, _, ⟨hb, rfl⟩, he, rfl⟩
    cases he
    exact ⟨⟨hn, ht, hb⟩, w, props, rfl, ha, rfl⟩
  · rintro ⟨⟨hn, ht, hb⟩, w, props, rfl, ha, rfl⟩
    exact ⟨w, _, ⟨props, ha, rfl⟩, _, _, ⟨ht, rfl⟩, (), _, ⟨hn, rfl⟩, _, _, ⟨hb, rfl⟩, rfl, rfl⟩

variable {p : Connect}

theorem encodeWill_eq_ok :
    encodeWill utf8 p = .ok bytes ↔ ValidWill utf8 p.willTopic p.willMessage ∧
      ∃ props, encodeProperties utf8 .willProperties p.willProperties = .ok props ∧
        bytes = props ++ prefixed p.willTopic ++ prefixed p.willMessage := by
  simp only [encodeWill, exceptBind_eq_ok, writeString_eq_ok, writeBinary_eq_ok]
  constructor
  · rintro ⟨props, hw, ⟨⟩, hn, _, ⟨ht, rfl⟩, _, ⟨hb, rfl⟩, he⟩
    exact ⟨⟨hn, ht, hb⟩, props, hw, (Except.ok.inj he).symm⟩
  · rintro ⟨⟨hn, ht, hb⟩, props, hw, rfl⟩
    exact ⟨props, hw, (), hn, _, ⟨ht, rfl⟩, _, ⟨hb, rfl⟩, rfl⟩

def Connect.will (p : Connect) : Option PublishProperties × Text × Text :=
  (p.willProperties, p.willTopic, p.willMessage)

theorem decodeWill_of_encode (he : writeOptional p.willFlag (encodeWill utf8 p) = .ok bytes) :
    Reader.optional p.willFlag (none, [], []) (decodeWill utf8) (bytes ++ rest) =
      .ok (p.normalize.will, rest) := by
  rw [optional_eq_ok]
  cases hf : p.willFlag with
  | false =>
    rw [hf] at he
    obtain rfl := Except.ok.inj he
    exact .inr ⟨rfl, by simp [Connect.will, Connect.normalize, hf], rfl⟩
  | true =>
    rw [hf] at he
    obtain ⟨hv, props, hw, rfl⟩ := encodeWill_eq_ok.mp he
    have ha := sectionOf_of_encode (P := PublishProperties) (by decide) hw
    refine .inl ⟨rfl, decodeWill_eq_ok.mpr ?_⟩
    simp only [Connect.will, Connect.normalize, hf, if_true]
    exact ⟨hv, _, props, rfl, ha, by simp only [append_assoc]⟩

theorem encodeWill_of_decode
    (hd : Reader.optional p.willFlag (none, [], []) (decodeWill utf8) inp = .ok (p.will, rest)) :
    p.normalize.will = p.will ∧
      ∃ out consumed, writeOptional p.willFlag (encodeWill utf8 p) = .ok out ∧
        inp = consumed ++ rest ∧ out.length ≤ consumed.length := by
  obtain ⟨hf, hd⟩ | ⟨hf, he, rfl⟩ := optional_eq_ok.mp hd
  · obtain ⟨hv, w, props, has, ha, rfl⟩ := decodeWill_eq_ok.mp hd
    obtain ⟨again, hw, hb⟩ := ha.encode
    have hasProps : p.willProperties = some w := has
    refine ⟨?_, again ++ prefixed p.willTopic ++ prefixed p.willMessage,
      props ++ prefixed p.willTopic ++ prefixed p.willMessage, ?_, ?_, ?_⟩
    · simp only [Connect.will, Connect.normalize, hf, if_true]
      rw [normalizeProperties_eq_self hasProps ha.normal]
    · rw [writeOptional, if_pos hf]
      exact encodeWill_eq_ok.mpr ⟨hv, again, hasProps ▸ hw, rfl⟩
    · simp only [append_assoc]
      rfl
    · simp only [length_append]
      omega
  · refine ⟨?_, [], [], by rw [writeOptional, hf]; rfl, rfl, le_rfl⟩
    rw [he]
    simp [Connect.will, Connect.normalize, hf]

structure Connect.Valid (validUTF8 : Text → Bool) (p : Connect) : Prop where
  flags : p.flags.Valid
  name : p.protocolName = Wire.protocolName
  nameText : ValidText validUTF8 p.protocolName
  version : p.protocolVersion = 5
  client : ValidText validUTF8 p.clientID
  username : p.usernameFlag = true → ValidText validUTF8 p.username
  password : p.passwordFlag = true → p.password.length ≤ 65535

/-- The bytes before the Will, and those behind it. -/
def Connect.front (p : Connect) (props : List UInt8) : List UInt8 :=
  prefixed p.protocolName ++ [p.protocolVersion, p.flags.packFlags] ++ writeUint16 p.keepAlive ++
    props ++ prefixed p.clientID

def Connect.back (p : Connect) : List UInt8 :=
  (if p.usernameFlag then prefixed p.username else []) ++
    (if p.passwordFlag then prefixed p.password else [])

theorem encodeConnect_eq_ok : encodeConnect utf8 p = .ok bytes ↔ p.Valid utf8 ∧
      ∃ props will, encodeProperties utf8 .connect p.properties = .ok props ∧
        writeOptional p.willFlag (encodeWill utf8 p) = .ok will ∧
        bytes = p.front props ++ will ++ p.back := by
  simp only [encodeConnect, validateConnectForEncode, validateConnectFlags, validatePasswordFlag,
    validateProtocol, validateVersion, exceptBind_eq_ok, ensure_eq_ok, decide_eq_true_eq,
    beq_iff_eq, writeString_eq_ok, writeOptional_eq_ok fun _ => writeString_eq_ok,
    writeOptional_eq_ok fun _ => writeBinary_eq_ok]
  constructor
  · rintro ⟨-, ⟨-, qos, -, ⟨-, hh, noRet⟩, passFlag⟩, -, name, -, version, _,
      ⟨nameText, rfl⟩, props, hw, _, ⟨hc, rfl⟩, will, putWill, _, ⟨username, rfl⟩, _,
      ⟨password, rfl⟩, he⟩
    refine ⟨⟨⟨qos, hh, noRet, passFlag⟩, name, nameText, version, hc, username,
      password⟩, props, will, hw, putWill, (Except.ok.inj he).symm.trans ?_⟩
    simp only [Connect.front, Connect.back, append_assoc]
  · rintro ⟨hv, props, will, hw, putWill, rfl⟩
    refine ⟨(), ⟨(), hv.flags.qos, (), ⟨(), hv.flags.noQoS, hv.flags.noRetain⟩,
      hv.flags.password⟩, (), hv.name, (), hv.version, _, ⟨hv.nameText, rfl⟩, props,
      hw, _, ⟨hv.client, rfl⟩, will, putWill, _, ⟨hv.username, rfl⟩, _,
      ⟨hv.password, rfl⟩, congrArg Except.ok ?_⟩
    simp only [Connect.front, Connect.back, append_assoc]

theorem readBinary_exact {pkt : UInt8} {field : String} :
    (readBinary pkt field).Exact (fun value => value.length ≤ 65535) prefixed :=
  fun _ _ _ => readBinary_eq_ok

theorem readString_exact {pkt : UInt8} {field : String} :
    (readString utf8 pkt field).Exact (ValidText utf8) prefixed :=
  fun _ _ _ => readString_eq_ok

theorem decodeConnectHeader_eq_ok {name : Text} {version : UInt8} {flags : ConnectFlags}
    {keepAlive : UInt16} :
    decodeConnectHeader utf8 inp = .ok ((name, version, flags, keepAlive), rest) ↔
      (name = protocolName ∧ ValidText utf8 name ∧ version = 5 ∧ flags.Valid) ∧
        inp = prefixed name ++ (version :: flags.packFlags :: (writeUint16 keepAlive ++ rest)) := by
  simp only [decodeConnectHeader, validateProtocol, validateVersion, bind_eq_ok,
    lift_eq_ok, pure_eq_ok, ensure_eq_ok, beq_iff_eq, readString_eq_ok, readByte_eq_ok,
    readUint16_eq_ok, unpackConnectFlags_eq_ok]
  constructor
  · rintro ⟨_, _, ⟨ht, rfl⟩, -, _, ⟨mqtt, rfl⟩, _, _, rfl, -, _, ⟨isFive, rfl⟩, _, _, rfl, _, _,
      ⟨⟨hv, rfl⟩, rfl⟩, _, _, rfl, he, rfl⟩
    cases he
    exact ⟨⟨mqtt, ht, isFive, hv⟩, rfl⟩
  · rintro ⟨⟨mqtt, ht, isFive, hv⟩, rfl⟩
    exact ⟨_, _, ⟨ht, rfl⟩, (), _, ⟨mqtt, rfl⟩, _, _, rfl, (), _, ⟨isFive, rfl⟩, _, _, rfl, _, _,
      ⟨⟨hv, rfl⟩, rfl⟩, _, _, rfl, rfl, rfl⟩

theorem decodeConnect_eq_ok : decodeConnect utf8 inp = .ok (p, rest) ↔ p.Valid utf8 ∧
      (p.usernameFlag = false → p.username = []) ∧ (p.passwordFlag = false → p.password = []) ∧
      ∃ q props middle, p.properties = some q ∧ SectionOf utf8 .connect props q ∧
        inp = p.front props ++ middle ∧
        Reader.optional p.willFlag (none, [], []) (decodeWill utf8) middle =
          .ok (p.will, p.back ++ rest) := by
  simp only [decodeConnect, bind_eq_ok, pure_eq_ok, Prod.exists,
    decodeConnectHeader_eq_ok, decodeProperties_eq_ok, readString_eq_ok,
    optional_exact readString_exact _ _ _ _ _,
    optional_exact readBinary_exact _ _ _ _ _]
  constructor
  · rintro ⟨name, version, flags, keepAlive, _, ⟨⟨mqtt, nameText, isFive, flagsOk⟩, rfl⟩, q, _,
      ⟨props, ha, rfl⟩, client, middle, ⟨cidText, rfl⟩, willProperties, willTopic,
      willMessage, _, hw, username, _, ⟨⟨userText, noUser⟩, rfl⟩, password, _,
      ⟨⟨passLt, noPass⟩, rfl⟩, rfl, rfl⟩
    refine ⟨⟨flagsOk, mqtt, nameText, isFive, cidText, userText, passLt⟩, noUser, noPass, q, props,
      middle, rfl, ha, ?_, ?_⟩
    · simp only [Connect.front, append_assoc]
      rfl
    · rw [hw]
      simp only [Connect.back, append_assoc]
      rfl
  · rintro ⟨hv, noUser, noPass, q, props, middle, has, ha, rfl, hw⟩
    refine ⟨p.protocolName, p.protocolVersion, p.flags, p.keepAlive, _,
      ⟨⟨hv.name, hv.nameText, hv.version, hv.flags⟩, ?_⟩, q, _, ⟨props, ha, rfl⟩,
      p.clientID, middle, ⟨hv.client, rfl⟩, p.willProperties, p.willTopic, p.willMessage, _, hw,
      p.username, _, ⟨⟨hv.username, noUser⟩, ?_⟩, p.password, _,
      ⟨⟨hv.password, noPass⟩, rfl⟩, ?_, rfl⟩
    · simp only [Connect.front, append_assoc]
      rfl
    · simp only [Connect.back, append_assoc]
      rfl
    · rw [← has]
      rfl

theorem decodeConnect_of_encode (he : encodeConnect utf8 p = .ok bytes) :
    decodeConnect utf8 bytes = .ok (p.normalize, []) := by
  obtain ⟨hv, props, will, hw, putWill, rfl⟩ := encodeConnect_eq_ok.mp he
  have ha := sectionOf_of_encode (P := ConnectProperties) (by decide) hw
  refine decodeConnect_eq_ok.mpr ⟨?_, ?_, ?_, _, props, will ++ p.back, rfl, ha, ?_, ?_⟩
  · refine ⟨hv.flags, hv.name, hv.nameText, hv.version, hv.client, ?_, ?_⟩
    · intro hf
      have set : p.usernameFlag = true := hf
      simpa only [Connect.normalize, set, if_true] using hv.username set
    · intro hf
      have set : p.passwordFlag = true := hf
      simpa only [Connect.normalize, set, if_true] using hv.password set
  · intro hf
    have hu : p.usernameFlag = false := hf
    simp [Connect.normalize, hu]
  · intro hf
    have hu : p.passwordFlag = false := hf
    simp [Connect.normalize, hu]
  · rw [append_assoc]
    rfl
  · have hk : p.normalize.back = p.back := by
      simp only [Connect.back, Connect.normalize]
      split_ifs <;> rfl
    rw [hk, append_nil]
    exact decodeWill_of_encode putWill

theorem encodeConnect_of_decode (hd : decodeConnect utf8 inp = .ok (p, [])) :
    p.normalize = p ∧ ∃ out, encodeConnect utf8 p = .ok out ∧ out.length ≤ inp.length := by
  obtain ⟨hv, noUser, noPass, q, props, middle, has, ha, rfl, will⟩ := decodeConnect_eq_ok.mp hd
  obtain ⟨willEq, out, consumed, putWill, rfl, hs⟩ := encodeWill_of_decode will
  obtain ⟨again, hw, hb⟩ := ha.encode
  refine ⟨?_, _, encodeConnect_eq_ok.mpr ⟨hv, again, out, has ▸ hw, putWill, rfl⟩, ?_⟩
  · have properties := normalizeProperties_eq_self has ha.normal
    have willProps : (if p.willFlag then normalizeProperties p.willProperties else none) =
        p.willProperties := congrArg Prod.fst willEq
    have willTopic : (if p.willFlag then p.willTopic else []) = p.willTopic :=
      congrArg (fun will => will.2.1) willEq
    have willMsg : (if p.willFlag then p.willMessage else []) = p.willMessage :=
      congrArg (fun will => will.2.2) willEq
    have hu : (if p.usernameFlag then p.username else []) = p.username := by
      cases hf : p.usernameFlag with
      | true => rfl
      | false => exact (noUser hf).symm
    have hp : (if p.passwordFlag then p.password else []) = p.password := by
      cases hf : p.passwordFlag with
      | true => rfl
      | false => exact (noPass hf).symm
    rw [Connect.normalize, properties, willProps, willTopic, willMsg, hu, hp]
  · simp only [Connect.front, length_append, append_nil]
    omega

end SkyTree.Wire
