import SkyTree.Wire.Bodies

/-!
# Round trips

What `Encode` accepts, `Decode` reads back, packet after packet; what `Decode` accepts,
`Encode` writes again in no more bytes, and that form is stable. The size limits of the
two cut off exactly the longer packets.
-/

namespace SkyTree.Wire

open Foundation PropertySet List Reader

variable {utf8 : Text → Bool}

/-! ## The fixed header -/

def Packet.QoSValid : Packet → Prop
  | .publish p => p.qos ≤ 2
  | _ => True

variable {p : Publish}

theorem publishFlags_header (qos : p.qos ≤ 2) : p.Header (publishFlags p) := by
  have hc : ∀ qos : UInt8, qos ≤ 2 → ∀ duplicate retain : Bool,
      qos = ((qos <<< 1 ||| bit duplicate 0x08 ||| bit retain 0x01) >>> 1) &&& 0x03 ∧
      duplicate = ((qos <<< 1 ||| bit duplicate 0x08 ||| bit retain 0x01) &&& 0x08 != 0) ∧
      retain = ((qos <<< 1 ||| bit duplicate 0x08 ||| bit retain 0x01) &&& 0x01 != 0) := by
    intro qos hb
    obtain rfl | rfl | rfl := le_two_cases hb <;> decide
  obtain ⟨first, hs, ht⟩ := hc p.qos qos p.duplicate p.retain
  exact ⟨first, hs, ht⟩

variable {flags : UInt8}

theorem publishFlags_of_header (hh : p.Header flags) (low : flags ≤ 0x0f) :
    publishFlags p = flags := by
  have hc : ∀ flags : UInt8, flags ≤ 0x0f →
      (((flags >>> 1) &&& 0x03) <<< 1) ||| bit (flags &&& 0x08 != 0) 0x08 |||
        bit (flags &&& 0x01 != 0) 0x01 = flags :=
    forall_uint8 (by decide +kernel)
  rw [publishFlags, hh.qos, hh.duplicate, hh.retain]
  exact hc flags low

theorem publishFlags_le (qos : p.qos ≤ 2) : publishFlags p ≤ 0x0f := by
  have hc : ∀ qos : UInt8, qos ≤ 2 → ∀ duplicate retain : Bool,
      qos <<< 1 ||| bit duplicate 0x08 ||| bit retain 0x01 ≤ 0x0f := by
    intro qos hb
    obtain rfl | rfl | rfl := le_two_cases hb <;> decide
  exact hc p.qos qos p.duplicate p.retain

theorem fixedHeaderFlags_publish : fixedHeaderFlags (.publish p) = .ok flags ↔
      p.qos ≠ 3 ∧ (p.qos = 0 → p.duplicate = false) ∧ flags = publishFlags p := by
  simp only [fixedHeaderFlags, exceptBind_eq_ok, ensure_eq_ok]
  constructor
  · rintro ⟨-, hr, -, hs, he⟩
    refine ⟨by simpa using hr, ?_, (Except.ok.inj he).symm⟩
    intro hz
    simpa [hz] using hs
  · rintro ⟨hr, hs, rfl⟩
    refine ⟨(), by simpa using hr, (), ?_, rfl⟩
    by_cases hz : p.qos = 0
    · simp [hz, hs hz]
    · simp [hz]

variable {cont : Packet}

theorem fixedHeaderFlags_le (qos : cont.QoSValid) (hh : fixedHeaderFlags cont = .ok flags) :
    flags ≤ 0x0f := by
  cases cont with
  | publish p =>
    obtain ⟨-, -, rfl⟩ := fixedHeaderFlags_publish.mp hh
    exact publishFlags_le qos
  | _ =>
    obtain rfl := Except.ok.inj hh
    decide

variable {pkt : PacketType}

theorem first_byte (hk : pkt ∈ PacketType.all) (low : flags ≤ 0x0f) :
    (pkt.code <<< 4 ||| flags) >>> 4 = pkt.code ∧ (pkt.code <<< 4 ||| flags) &&& 0x0f = flags := by
  have hc : ∀ flags : UInt8, flags ≤ 0x0f → ∀ pkt ∈ PacketType.all,
      (pkt.code <<< 4 ||| flags) >>> 4 = pkt.code ∧ (pkt.code <<< 4 ||| flags) &&& 0x0f = flags :=
    forall_uint8 (by decide +kernel)
  exact hc flags low pkt hk

theorem first_byte_split (first : UInt8) :
    first &&& 0x0f ≤ 0x0f ∧ (first >>> 4) <<< 4 ||| (first &&& 0x0f) = first := by
  have hc : ∀ first : UInt8,
      first &&& 0x0f ≤ 0x0f ∧ (first >>> 4) <<< 4 ||| (first &&& 0x0f) = first :=
    forall_uint8 (by decide +kernel)
  exact hc first

theorem packetType_known (cont : Packet) : cont.packetType ∈ PacketType.all := by
  cases cont <;> simp [Packet.packetType, PacketType.all]

theorem lookupPacketType_eq_ok {code : UInt8} :
    lookupPacketType code = .ok pkt ↔ pkt ∈ PacketType.all ∧ pkt.code = code := by
  have hf : lookupPacketType code = .ok pkt ↔
      PacketType.all.find? (fun pkt => pkt.code == code) = some pkt := by
    rw [lookupPacketType]
    cases PacketType.all.find? (fun pkt => pkt.code == code) <;> simp
  rw [hf]
  constructor
  · intro hf
    exact ⟨mem_of_find?_eq_some hf, by simpa using find?_some hf⟩
  · rintro ⟨hk, rfl⟩
    revert pkt
    decide

/-! ## Bodies -/

variable {body : List UInt8}

theorem decodePacket_eq_ok : decodePacket utf8 pkt flags body = .ok cont ↔
      decodeBody utf8 flags pkt body = .ok (cont, []) := by
  simp only [decodePacket, exceptBind_eq_ok, ensure_eq_ok, Prod.exists, List.isEmpty_iff]
  constructor
  · rintro ⟨found, rest, hr, -, rfl, he⟩
    obtain rfl := Except.ok.inj he
    exact hr
  · intro hr
    exact ⟨cont, [], hr, (), rfl, rfl⟩

variable {inp : List UInt8}

theorem wrap_eq_ok {α : Type} {reader : Reader WireError α} {wrap : α → Packet} :
    (do return wrap (← reader) : Reader WireError Packet) inp = .ok (cont, []) ↔
      ∃ a, reader inp = .ok (a, []) ∧ cont = wrap a := by
  simp only [bind_eq_ok, pure_eq_ok]
  constructor
  · rintro ⟨a, _, hr, rfl, rfl⟩
    exact ⟨a, hr, rfl⟩
  · rintro ⟨a, hr, rfl⟩
    exact ⟨a, [], hr, rfl, rfl⟩

theorem decodePacket_of_encode (qos : cont.QoSValid) (hh : fixedHeaderFlags cont = .ok flags)
    (he : encodePacket utf8 cont = .ok body) :
    decodePacket utf8 cont.packetType flags body = .ok cont.normalize := by
  rw [decodePacket_eq_ok]
  cases cont with
  | connect p => exact wrap_eq_ok.mpr ⟨_, decodeConnect_of_encode he, rfl⟩
  | connack p => exact wrap_eq_ok.mpr ⟨_, (connackBody utf8).decode_of_encode trivial he, rfl⟩
  | publish p =>
    obtain ⟨-, -, rfl⟩ := fixedHeaderFlags_publish.mp hh
    exact wrap_eq_ok.mpr ⟨_, (publishBody utf8 _).decode_of_encode (publishFlags_header qos)
      he, rfl⟩
  | puback p =>
    exact wrap_eq_ok.mpr ⟨_, (ackBody utf8 .puback (by decide) rfl).decode_of_encode trivial
      he, rfl⟩
  | pubrec p =>
    exact wrap_eq_ok.mpr ⟨_, (ackBody utf8 .pubrec (by decide) rfl).decode_of_encode trivial
      he, rfl⟩
  | pubrel p =>
    exact wrap_eq_ok.mpr ⟨_, (ackBody utf8 .pubrel (by decide) rfl).decode_of_encode trivial
      he, rfl⟩
  | pubcomp p =>
    exact wrap_eq_ok.mpr ⟨_, (ackBody utf8 .pubcomp (by decide) rfl).decode_of_encode trivial
      he, rfl⟩
  | subscribe p =>
    exact wrap_eq_ok.mpr ⟨_, (subscribeBody utf8).decode_of_encode trivial he, rfl⟩
  | suback p =>
    exact wrap_eq_ok.mpr ⟨_, (codeListBody utf8 .suback (by decide)).decode_of_encode trivial
      he, rfl⟩
  | unsubscribe p =>
    exact wrap_eq_ok.mpr ⟨_, (unsubscribeBody utf8).decode_of_encode trivial he, rfl⟩
  | unsuback p =>
    exact wrap_eq_ok.mpr ⟨_, (codeListBody utf8 .unsuback (by decide)).decode_of_encode trivial
      he, rfl⟩
  | pingreq | pingresp =>
    obtain rfl := Except.ok.inj he
    rfl
  | disconnect p =>
    exact wrap_eq_ok.mpr ⟨_, (reasonBody utf8 .disconnect DisconnectProperties (by decide)
      rfl).decode_of_encode trivial he, rfl⟩
  | auth p =>
    exact wrap_eq_ok.mpr ⟨_, (reasonBody utf8 .auth AuthProperties (by decide)
      rfl).decode_of_encode trivial he, rfl⟩

theorem ping_eq_ok {ping : Packet} :
    (do decodeEmpty pkt; return ping : Reader WireError Packet) inp = .ok (cont, []) ↔
      cont = ping ∧ inp = [] := by
  simp only [decodeEmpty, bind_eq_ok, pure_eq_ok, atEnd_eq_ok, lift_eq_ok, ensure_eq_ok]
  constructor
  · rintro ⟨-, _, ⟨_, _, ⟨rfl, rfl⟩, ended, rfl⟩, rfl, rfl⟩
    exact ⟨rfl, rfl⟩
  · rintro ⟨rfl, rfl⟩
    exact ⟨(), [], ⟨true, [], ⟨rfl, rfl⟩, rfl, rfl⟩, rfl, rfl⟩

structure Reencodable (validUTF8 : Text → Bool) (packet : PacketType) (flags : UInt8)
    (body : List UInt8) (content : Packet) : Prop where
  type : content.packetType = packet
  normal : content.normalize = content
  qos : content.QoSValid
  header : fixedHeaderFlags content = .ok flags
  encoded : ∃ out, encodePacket validUTF8 content = .ok out ∧ out.length ≤ body.length

section Reencodable

variable {pkt : PacketType} {flags : UInt8} {inp : List UInt8} {cont : Packet}

theorem reencodable_of_body {X P : Type} [PropertySet P] (body : Body utf8 X P) (wrap : X → Packet)
    (hd : (do return wrap (← body.decode) : Reader WireError Packet) inp = .ok (cont, []))
    (hh : ∀ x, body.Header x → body.Valid x →
      fixedHeaderFlags (wrap x) = .ok flags ∧ (wrap x).QoSValid := by
        exact fun _ _ _ => ⟨rfl, trivial⟩)
    (ht : ∀ x, (wrap x).packetType = pkt := by exact fun _ => rfl)
    (normalize : ∀ x, (wrap x).normalize = wrap (body.normalize x) := by exact fun _ => rfl)
    (encode : ∀ x, encodePacket utf8 (wrap x) = body.encode x := by exact fun _ => rfl) :
    Reencodable utf8 pkt flags inp cont := by
  obtain ⟨x, hr, rfl⟩ := wrap_eq_ok.mp hd
  obtain ⟨hn, header, out, he, hs⟩ := body.encode_of_decode hr
  obtain ⟨hf, qos⟩ := hh x header (body.of_decode hr).1
  exact ⟨ht x, by rw [normalize, hn], qos, hf, out, by rw [encode, he], hs⟩

theorem flags_of_validate (hp : pkt ≠ .publish) (hv : validateFixedHeaderFlags pkt flags = .ok ()) :
    flags = if pkt = .pubrel ∨ pkt = .subscribe ∨ pkt = .unsubscribe then 2 else 0 := by
  cases pkt <;> simp_all [validateFixedHeaderFlags, ensure_eq_ok]

theorem publish_header_of_decode {p : Publish} (low : flags ≤ 0x0f)
    (hv : validateFixedHeaderFlags .publish flags = .ok ()) (hh : p.Header flags) :
    fixedHeaderFlags (.publish p) = .ok flags ∧ p.qos ≤ 2 := by
  simp only [validateFixedHeaderFlags, exceptBind_eq_ok, ensure_eq_ok] at hv
  obtain ⟨-, hr, hs⟩ := hv
  have hb : p.qos ≤ 2 := by
    rw [hh.qos]
    exact le_two_of_masked hr
  refine ⟨fixedHeaderFlags_publish.mpr ⟨?_, ?_, (publishFlags_of_header hh low).symm⟩, hb⟩
  · rw [hh.qos]
    simpa using hr
  · intro hz
    rw [hh.qos] at hz
    rw [hh.duplicate]
    simpa [hz] using hs

theorem reencodable_of_decode (low : flags ≤ 0x0f)
    (hv : validateFixedHeaderFlags pkt flags = .ok ())
    (hd : decodePacket utf8 pkt flags inp = .ok cont) :
    Reencodable utf8 pkt flags inp cont := by
  rw [decodePacket_eq_ok] at hd
  by_cases hp : pkt = .publish
  · subst hp
    exact reencodable_of_body (publishBody utf8 flags) .publish hd
      fun _ hh _ => publish_header_of_decode low hv hh
  obtain rfl := flags_of_validate hp hv
  cases pkt with
  | publish => exact absurd rfl hp
  | connect =>
    obtain ⟨p, hr, rfl⟩ := wrap_eq_ok.mp hd
    obtain ⟨hn, he⟩ := encodeConnect_of_decode hr
    exact ⟨rfl, congrArg Packet.connect hn, trivial, rfl, he⟩
  | pingreq | pingresp =>
    obtain ⟨rfl, rfl⟩ := ping_eq_ok.mp hd
    exact ⟨rfl, rfl, trivial, rfl, [], rfl, Nat.zero_le _⟩
  | willProperties => cases hd
  | connack => exact reencodable_of_body (connackBody utf8) .connack hd
  | puback => exact reencodable_of_body (ackBody utf8 .puback (by decide) rfl) .puback hd
  | pubrec => exact reencodable_of_body (ackBody utf8 .pubrec (by decide) rfl) .pubrec hd
  | pubrel => exact reencodable_of_body (ackBody utf8 .pubrel (by decide) rfl) .pubrel hd
  | pubcomp => exact reencodable_of_body (ackBody utf8 .pubcomp (by decide) rfl) .pubcomp hd
  | subscribe => exact reencodable_of_body (subscribeBody utf8) .subscribe hd
  | unsubscribe => exact reencodable_of_body (unsubscribeBody utf8) .unsubscribe hd
  | suback => exact reencodable_of_body (codeListBody utf8 .suback (by decide)) .suback hd
  | unsuback => exact reencodable_of_body (codeListBody utf8 .unsuback (by decide)) .unsuback hd
  | disconnect =>
    exact reencodable_of_body (reasonBody utf8 .disconnect DisconnectProperties (by decide) rfl)
      .disconnect hd
  | auth =>
    exact reencodable_of_body (reasonBody utf8 .auth AuthProperties (by decide) rfl) .auth hd

end Reencodable

/-! ## Whole packets -/

def frame (packet : PacketType) (flags : UInt8) (body : List UInt8) : List UInt8 :=
  (packet.code <<< 4 ||| flags) :: (vbiDigits 4 body.length ++ body)

theorem length_frame (pkt : PacketType) (flags : UInt8) (body : List UInt8) :
    (frame pkt flags body).length = 1 + (vbiDigits 4 body.length).length + body.length := by
  rw [frame, length_cons, length_append]
  omega

def Within (limit : Int) (size : Nat) : Prop := limit ≤ 0 ∨ size ≤ limit

variable {limit : Int}

theorem validateSize_eq_ok {nothing : Unit} :
    validateSize pkt limit (1 + (vbiDigits 4 body.length).length + body.length) = .ok nothing ↔
      Within limit (frame pkt flags body).length := by
  rw [validateSize, ensure_eq_ok, Within, length_frame]
  simp

variable {cp : ControlPacket} {out : List UInt8}

theorem encode_eq_ok : encode utf8 limit cp = .ok out ↔
      ∃ cont flags body, cp.canonicalPacket = some cont ∧
        (cp.type = 0 ∨ cp.type = cont.packetType.code) ∧
        fixedHeaderFlags cont = .ok flags ∧
        validateFixedHeaderFlags cont.packetType flags = .ok () ∧
        encodePacket utf8 cont = .ok body ∧ body.length ≤ maxRemainingLength ∧
        out = frame cont.packetType flags body ∧ Within limit out.length := by
  rw [encode]
  cases carried : cp.canonicalPacket with
  | none => simp
  | some cont =>
    simp only [exceptBind_eq_ok, ensure_eq_ok, Bool.or_eq_true, beq_iff_eq, decide_eq_true_eq,
      encodeRemainingLength_eq_ok, Option.some.injEq]
    constructor
    · rintro ⟨-, type, flags, header, ⟨⟩, valid, body, encoded, -, bound, _, ⟨-, -, rfl⟩, ⟨⟩, fits,
        same⟩
      obtain rfl := Except.ok.inj same
      refine ⟨cont, flags, body, rfl, type, header, valid, encoded, bound, rfl, ?_⟩
      exact validateSize_eq_ok.mp fits
    · rintro ⟨_, flags, body, rfl, type, header, valid, encoded, bound, rfl, fits⟩
      exact ⟨(), type, flags, header, (), valid, body, encoded, (), bound, _,
        ⟨Int.natCast_nonneg _, by exact_mod_cast bound, rfl⟩, (), validateSize_eq_ok.mpr fits, rfl⟩

theorem decode_eq_ok {rest : List UInt8} : decode utf8 limit inp = .ok (cp, rest) ↔
      ∃ pkt flags body cont, pkt ∈ PacketType.all ∧ flags ≤ 0x0f ∧
        validateFixedHeaderFlags pkt flags = .ok () ∧ body.length ≤ maxRemainingLength ∧
        decodePacket utf8 pkt flags body = .ok cont ∧
        inp = frame pkt flags body ++ rest ∧ Within limit (frame pkt flags body).length ∧
        cp = ⟨some cont, some cont, pkt.code, flags, body.length⟩ := by
  simp only [decode, wire, readRemainingLength, readFull, bind_eq_ok, lift_eq_ok,
    pure_eq_ok, next_eq_ok, mapError, exceptMapError_eq_ok,
    lookupPacketType_eq_ok, readDigits_whole, take_eq_ok, Prod.exists]
  constructor
  · rintro ⟨first, _, rfl, pkt, _, ⟨⟨hk, hc⟩, rfl⟩, ⟨⟩, _, ⟨hv, rfl⟩, _, _, _,
      ⟨hb, rfl, rfl⟩, ⟨⟩, _, ⟨hf, rfl⟩, body, _, ⟨rfl, rfl⟩, cont, _, ⟨hd, rfl⟩, rfl, rfl⟩
    obtain ⟨low, hw⟩ := first_byte_split first
    rw [← hc] at hw
    refine ⟨pkt, first &&& 0x0f, body, cont, hk, low, hv, hb, hd, ?_, validateSize_eq_ok.mp hf, rfl⟩
    rw [frame, hw, cons_append, append_assoc]
  · rintro ⟨pkt, flags, body, cont, hk, low, hv, hb, hd, rfl, hf, rfl⟩
    obtain ⟨hc, hm⟩ := first_byte hk low
    refine ⟨pkt.code <<< 4 ||| flags, _, rfl, pkt, _, ⟨⟨hk, hc.symm⟩, rfl⟩, (), _, ⟨?_, rfl⟩,
      body.length, _, body ++ rest, ⟨hb, rfl, append_assoc _ _ _⟩, (), _,
      ⟨validateSize_eq_ok.mpr hf, rfl⟩, body, rest, ⟨rfl, rfl⟩, cont, rest, ⟨?_, rfl⟩, ?_, rfl⟩
    · rw [hm]
      exact hv
    · rw [hm]
      exact hd
    · rw [hm]

def ControlPacket.QoSValid (cp : ControlPacket) : Prop :=
  ∀ content, cp.canonicalPacket = some content → content.QoSValid

/-- What a packet carries, up to absent and empty fields. -/
def ControlPacket.contents (cp : ControlPacket) : Option Packet :=
  cp.canonicalPacket.map Packet.normalize

theorem within_zero (size : Nat) : Within 0 size := .inl le_rfl

theorem decode_encoded (qos : cp.QoSValid) (he : encode utf8 limit cp = .ok out) :
    ∃ again, again.contents = cp.contents ∧ again.canonicalPacket = cp.contents ∧
      ∀ rest, decode utf8 0 (out ++ rest) = .ok (again, rest) := by
  obtain ⟨cont, flags, body, hc, -, hh, hv, hw, hb, rfl, -⟩ := encode_eq_ok.mp he
  have low := fixedHeaderFlags_le (qos cont hc) hh
  have hd := decodePacket_of_encode (qos cont hc) hh hw
  have hn := (reencodable_of_decode low hv hd).normal
  refine ⟨⟨some cont.normalize, some cont.normalize, cont.packetType.code, flags,
    body.length⟩, ?_, ?_, ?_⟩
  · rw [ControlPacket.contents, ControlPacket.contents, hc]
    exact congrArg some hn
  · rw [ControlPacket.contents, hc]
    rfl
  · intro rest
    exact decode_eq_ok.mpr ⟨cont.packetType, flags, body, cont.normalize,
      packetType_known cont, low, hv, hb, hd, rfl, within_zero _, rfl⟩

def decodeStream (validUTF8 : Text → Bool) (limit : Int) :
    Nat → Reader DecodeError (List ControlPacket)
  | 0 => return []
  | count + 1 => do
      let cp ← decode validUTF8 limit
      let more ← decodeStream validUTF8 limit count
      return cp :: more

theorem decodeStream_encoded {packets : List ControlPacket} {bytes : List UInt8}
    (qos : ∀ cp ∈ packets, cp.QoSValid)
    (coded : writeAll (encode utf8 limit) packets = .ok bytes) (rest : List UInt8) :
    ∃ decoded, decodeStream utf8 0 packets.length (bytes ++ rest) = .ok (decoded, rest) ∧
      decoded.map ControlPacket.contents = packets.map ControlPacket.contents := by
  induction packets generalizing bytes with
  | nil =>
    obtain rfl := Except.ok.inj coded
    exact ⟨[], rfl, rfl⟩
  | cons cp packets ih =>
    simp only [writeAll, exceptBind_eq_ok] at coded
    obtain ⟨first, hw, others, writtenOthers, he⟩ := coded
    obtain rfl := Except.ok.inj he
    obtain ⟨qosFirst, qosOthers⟩ := forall_mem_cons.mp qos
    obtain ⟨again, firstEq, -, hr⟩ := decode_encoded qosFirst hw
    obtain ⟨decoded, readOthers, othersEq⟩ := ih qosOthers writtenOthers
    refine ⟨again :: decoded, ?_, ?_⟩
    · rw [length_cons, decodeStream, append_assoc]
      simp only [bind_eq_ok, pure_eq_ok]
      exact ⟨again, _, hr _, decoded, rest, readOthers, rfl, rfl⟩
    · rw [map_cons, map_cons, firstEq, othersEq]

theorem encode_limit_iff (hp : 0 < limit) :
    encode utf8 limit cp = .ok out ↔ encode utf8 0 cp = .ok out ∧ out.length ≤ limit := by
  rw [encode_eq_ok, encode_eq_ok]
  constructor
  · rintro ⟨cont, flags, body, hc, ht, hh, hv, hw, hb, rfl, hf⟩
    exact ⟨⟨cont, flags, body, hc, ht, hh, hv, hw, hb, rfl, within_zero _⟩,
      hf.resolve_left (by omega)⟩
  · rintro ⟨⟨cont, flags, body, hc, ht, hh, hv, hw, hb, rfl, -⟩, hf⟩
    exact ⟨cont, flags, body, hc, ht, hh, hv, hw, hb, rfl, .inr hf⟩

theorem decode_limit_iff (hp : 0 < limit) {rest : List UInt8} :
    decode utf8 limit inp = .ok (cp, rest) ↔ decode utf8 0 inp = .ok (cp, rest) ∧
        ∃ consumed, inp = consumed ++ rest ∧ consumed.length ≤ limit := by
  rw [decode_eq_ok, decode_eq_ok]
  constructor
  · rintro ⟨pkt, flags, body, cont, hk, low, hv, hb, hd, rfl, hf, rfl⟩
    exact ⟨⟨pkt, flags, body, cont, hk, low, hv, hb, hd, rfl, within_zero _, rfl⟩,
      _, rfl, hf.resolve_left (by omega)⟩
  · rintro ⟨⟨pkt, flags, body, cont, hk, low, hv, hb, hd, rfl, -, rfl⟩, consumed, he, hf⟩
    obtain rfl := append_cancel_right he
    exact ⟨pkt, flags, body, cont, hk, low, hv, hb, hd, rfl, .inr hf, rfl⟩

/-- Every list of packets that `Encode` accepts is read back from the joined bytes, which are
consumed exactly; and the two limits cut off exactly the longer packets. -/
theorem packets_round_trip (validUTF8 : Text → Bool) :
    (∀ (limit : Int) (packets : List ControlPacket) (bytes rest : List UInt8),
      (∀ cp ∈ packets, cp.QoSValid) → writeAll (encode validUTF8 limit) packets = .ok bytes →
      ∃ decoded, decodeStream validUTF8 0 packets.length (bytes ++ rest) = .ok (decoded, rest) ∧
        decoded.map ControlPacket.contents = packets.map ControlPacket.contents) ∧
    (∀ limit : Int, 0 < limit → ∀ (cp : ControlPacket) (out : List UInt8),
      encode validUTF8 limit cp = .ok out ↔ encode validUTF8 0 cp = .ok out ∧ out.length ≤ limit) ∧
    (∀ limit : Int, 0 < limit → ∀ (cp : ControlPacket) (input rest : List UInt8),
      decode validUTF8 limit input = .ok (cp, rest) ↔ decode validUTF8 0 input = .ok (cp, rest) ∧
          ∃ consumed, input = consumed ++ rest ∧ consumed.length ≤ limit) :=
  ⟨fun _ _ _ rest qos he => decodeStream_encoded qos he rest, fun _ hp _ _ => encode_limit_iff hp,
    fun _ hp _ _ _ => decode_limit_iff hp⟩

/-- A PUBLISH with QoS 1 and a ping, in front of another byte. -/
theorem packets_round_trip_publish_ping : let publish : ControlPacket :=
      ⟨some (.publish ⟨[1, 2], [97], none, 7, 1, false, true⟩), none, 0, 0, 0⟩
    let ping : ControlPacket := ⟨some .pingreq, none, 12, 0, 0⟩
    (∃ decoded, decodeStream (fun _ => true) 0 2
        ([0x33, 8, 0, 1, 97, 0, 7, 0, 1, 2, 0xc0, 0] ++ [0xff]) = .ok (decoded, [0xff]) ∧
      decoded.map ControlPacket.contents = [publish.contents, ping.contents]) ∧
    (encode (fun _ => true) 2 ping = .ok [0xc0, 0] ∧
      ¬ encode (fun _ => true) 1 ping = .ok [0xc0, 0]) := by
  intro publish ping
  have general := packets_round_trip fun _ => true
  refine ⟨general.1 0 [publish, ping] _ [0xff] ?_ rfl, ?_, ?_⟩
  · intro cp inside content carried
    obtain rfl | inside := mem_cons.mp inside
    · cases carried
      exact (by decide : (1 : UInt8) ≤ 2)
    · obtain rfl := mem_singleton.mp inside
      cases carried
      trivial
  · exact (general.2.1 2 (by decide) ping _).mpr ⟨rfl, by decide⟩
  · intro accepted
    exact absurd ((general.2.1 1 (by decide) ping _).mp accepted).2 (by decide)

/-- Whatever `Decode` accepts, `Encode` writes in no more bytes than were consumed; these
bytes decode to the same packet, which encodes to them again. -/
theorem decoded_reencodes (validUTF8 : Text → Bool) (limit : Int) (input rest : List UInt8)
    (cp : ControlPacket) (decoded : decode validUTF8 limit input = .ok (cp, rest)) :
    ∃ consumed out, input = consumed ++ rest ∧ encode validUTF8 0 cp = .ok out ∧
      out.length ≤ consumed.length ∧
      ∃ again, (∀ more, decode validUTF8 0 (out ++ more) = .ok (again, more)) ∧
        again.contents = cp.contents ∧ encode validUTF8 0 again = .ok out := by
  obtain ⟨packet, flags, body, content, hk, low, hv, hb, hr, rfl, -, rfl⟩ := decode_eq_ok.mp decoded
  obtain ⟨rfl, hn, qos, hh, out, hw, hs⟩ := reencodable_of_decode low hv hr
  have he : ∀ cp : ControlPacket, cp.canonicalPacket = some content →
      (cp.type = 0 ∨ cp.type = content.packetType.code) →
      encode validUTF8 0 cp = .ok (frame content.packetType flags out) := by
    intro cp hc ht
    exact encode_eq_ok.mpr ⟨content, flags, out, hc, ht, hh, hv, hw,
      hs.trans hb, rfl, within_zero _⟩
  refine ⟨_, _, rfl, he _ rfl (.inr rfl), ?_,
    ⟨some content, some content, content.packetType.code, flags, out.length⟩, ?_, rfl,
    he _ rfl (.inr rfl)⟩
  · rw [length_frame, length_frame]
    have hd := @vbiDigits_length_mono 4 _ _ hs
    omega
  · intro more
    have again := decodePacket_of_encode qos hh hw
    rw [hn] at again
    exact decode_eq_ok.mpr ⟨content.packetType, flags, out, content, hk, low, hv,
      hs.trans hb, again, rfl, within_zero _, rfl⟩

/-- A PUBACK that spells out its reason and its empty properties. -/
theorem decoded_reencodes_puback :
    ∃ consumed out, ([0x40, 4, 0, 7, 0, 0, 1] : List UInt8) = consumed ++ [1] ∧
      encode (fun _ => true) 0
        ⟨some (.puback ⟨some {}, 7, 0⟩), some (.puback ⟨some {}, 7, 0⟩), 4, 0, 4⟩ = .ok out ∧
      out.length ≤ consumed.length ∧
      ∃ again, (∀ more, decode (fun _ => true) 0 (out ++ more) = .ok (again, more)) ∧
        again.contents = some (.puback ⟨some {}, 7, 0⟩) ∧
        encode (fun _ => true) 0 again = .ok out :=
  decoded_reencodes (fun _ => true) 0 [0x40, 4, 0, 7, 0, 0, 1] [1] _ rfl

/-- What a stream of packets is read as does not depend on the bytes after it. -/
theorem decodeStream_local (validUTF8 : Text → Bool) (limit : Int) (count : Nat)
    (input rest : List UInt8) (packets : List ControlPacket)
    (decoded : decodeStream validUTF8 limit count input = .ok (packets, rest)) :
    ∃ consumed, input = consumed ++ rest ∧ 2 * count ≤ consumed.length ∧
      ∀ more, decodeStream validUTF8 limit count (consumed ++ more) = .ok (packets, more) := by
  induction count generalizing input packets with
  | zero =>
    cases decoded
    exact ⟨[], rfl, le_rfl, fun _ => rfl⟩
  | succ count ih =>
    simp only [decodeStream, bind_eq_ok, pure_eq_ok] at decoded ⊢
    obtain ⟨cp, _, hd, others, _, ho, rfl, rfl⟩ := decoded
    obtain ⟨pkt, flags, body, cont, hk, low, hv, hb, hc, rfl, hw, rfl⟩ := decode_eq_ok.mp hd
    obtain ⟨consumed, rfl, hl, hm⟩ := ih _ _ ho
    refine ⟨frame pkt flags body ++ consumed, (append_assoc ..).symm, ?_, fun more => ?_⟩
    · have : 0 < (vbiDigits 4 body.length).length := vbiDigits_length_pos (by decide)
      rw [length_append, length_frame]
      omega
    · rw [append_assoc]
      exact ⟨_, _, decode_eq_ok.mpr ⟨pkt, flags, body, cont, hk, low, hv, hb, hc, rfl, hw, rfl⟩,
        _, _, hm more, rfl, rfl⟩

/-- A PUBACK that spells out its reason, then a PUBREL. -/
theorem decodeStream_local_acks :
    ∃ consumed, ([0x40, 4, 0, 7, 0, 0, 0x62, 2, 0, 9, 1] : List UInt8) = consumed ++ [1] ∧
      2 * 2 ≤ consumed.length ∧ ∀ more, decodeStream (fun _ => true) 0 2 (consumed ++ more) =
        .ok ([⟨some (.puback ⟨some {}, 7, 0⟩), some (.puback ⟨some {}, 7, 0⟩), 4, 0, 4⟩,
          ⟨some (.pubrel ⟨some {}, 9, 0⟩), some (.pubrel ⟨some {}, 9, 0⟩), 6, 2, 2⟩], more) :=
  decodeStream_local (fun _ => true) 0 2 [0x40, 4, 0, 7, 0, 0, 0x62, 2, 0, 9, 1] [1] _ rfl

end SkyTree.Wire
