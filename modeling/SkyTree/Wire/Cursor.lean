import SkyTree.Foundation.ByteReader

/-!
# Fields on the wire

The fields that MQTT packets are made of: bytes, big-endian integers, variable byte
integers, and byte strings behind a two-byte length. Texts are byte strings; which of
them are UTF-8 is a parameter. Every reader accepts exactly what the writer of the same
field produces.
-/

namespace SkyTree.Wire

open Foundation List Reader

abbrev Text := List UInt8

/-! ## Errors -/

inductive ErrorKind where
  | malformedPacket
  | protocolError
  | packetTooLarge
  | unsupportedProtocolVersion
  | implementation
  deriving DecidableEq, Repr

inductive ReadError where
  | eof
  | unexpectedEOF
  deriving DecidableEq, Repr

structure WireError where
  kind : ErrorKind
  packet : UInt8
  field : String
  reason : UInt8
  message : String
  packetSize : Int := 0
  maxPacketSize : Int := 0
  cause : Option ReadError := none
  deriving DecidableEq, Repr

def ErrorKind.reason : ErrorKind → UInt8
  | .packetTooLarge => 0x95
  | .unsupportedProtocolVersion => 0x84
  | .protocolError => 0x82
  | .malformedPacket => 0x81
  | .implementation => 0x83

def wireError (kind : ErrorKind) (packet : UInt8) (field message : String)
    (cause : Option ReadError := none) : WireError :=
  { kind, packet, field, reason := kind.reason, message, cause }

def malformed (packet : UInt8) (field message : String) : WireError :=
  wireError .malformedPacket packet field message

def implementation (packet : UInt8) (field message : String) : WireError :=
  wireError .implementation packet field message

def unsupportedVersion (version : UInt8) : WireError :=
  wireError .unsupportedProtocolVersion 1 "protocol version"
    s!"unsupported protocol version {version}"

def tooLarge (packet : UInt8) (size limit : Int) : WireError :=
  { wireError .packetTooLarge packet "remaining length"
      s!"packet size {size} exceeds maximum {limit}" with
    packetSize := size
    maxPacketSize := limit }

def packetTypeName (packet : UInt8) : String :=
  ["", "CONNECT", "CONNACK", "PUBLISH", "PUBACK", "PUBREC", "PUBREL", "PUBCOMP", "SUBSCRIBE",
    "SUBACK", "UNSUBSCRIBE", "UNSUBACK", "PINGREQ", "PINGRESP", "DISCONNECT", "AUTH"].getD
    packet.toNat "UNKNOWN"

def ReadError.error : ReadError → String
  | .eof => "EOF"
  | .unexpectedEOF => "unexpected EOF"

def WireError.error (err : WireError) : String :=
  let message := if err.message = "" then "mqtt wire error" else err.message
  let message :=
    if err.packet ≠ 0 then packetTypeName err.packet ++ " " ++ message else message
  let message := if err.field ≠ "" then message ++ " (" ++ err.field ++ ")" else message
  match err.cause with
  | none => message
  | some cause => message ++ ": " ++ cause.error

/-! ## Integers -/

def writeUint16 (value : UInt16) : List UInt8 :=
  [UInt8.ofNat (value.toNat / 256), UInt8.ofNat value.toNat]

def writeUint32 (value : UInt32) : List UInt8 :=
  [UInt8.ofNat (value.toNat / 16777216), UInt8.ofNat (value.toNat / 65536),
    UInt8.ofNat (value.toNat / 256), UInt8.ofNat value.toNat]

def uint16OfBytes : List UInt8 → UInt16
  | [high, low] => UInt16.ofNat (high.toNat * 256 + low.toNat)
  | _ => 0

def uint32OfBytes : List UInt8 → UInt32
  | [first, second, third, fourth] => UInt32.ofNat
      (first.toNat * 16777216 + second.toNat * 65536 + third.toNat * 256 + fourth.toNat)
  | _ => 0

theorem uint16OfBytes_write (value : UInt16) : uint16OfBytes (writeUint16 value) = value := by
  have hb := value.toNat_lt
  apply UInt16.toNat_inj.mp
  simp only [writeUint16, uint16OfBytes, UInt16.toNat_ofNat', UInt8.toNat_ofNat']
  omega

theorem uint32OfBytes_write (value : UInt32) : uint32OfBytes (writeUint32 value) = value := by
  have hb := value.toNat_lt
  apply UInt32.toNat_inj.mp
  simp only [writeUint32, uint32OfBytes, UInt32.toNat_ofNat', UInt8.toNat_ofNat']
  omega

theorem writeUint16_ofBytes {bytes : List UInt8} (two : bytes.length = 2) :
    writeUint16 (uint16OfBytes bytes) = bytes := by
  obtain ⟨high, low, rfl⟩ := length_eq_two.mp two
  have highBound := high.toNat_lt
  have lowLt := low.toNat_lt
  simp only [writeUint16, uint16OfBytes, UInt16.toNat_ofNat', List.cons.injEq, and_true]
  constructor
  · apply UInt8.toNat_inj.mp
    rw [UInt8.toNat_ofNat']
    omega
  · apply UInt8.toNat_inj.mp
    rw [UInt8.toNat_ofNat']
    omega

theorem writeUint32_ofBytes {bytes : List UInt8} (hf : bytes.length = 4) :
    writeUint32 (uint32OfBytes bytes) = bytes := by
  match bytes, hf with
  | [first, second, third, fourth], _ =>
    have firstBound := first.toNat_lt
    have secondBound := second.toNat_lt
    have thirdBound := third.toNat_lt
    have hh := fourth.toNat_lt
    have he : ∀ (byte : UInt8) (value : Nat), value % 256 = byte.toNat →
        UInt8.ofNat value = byte := by
      intro byte value heq
      apply UInt8.toNat_inj.mp
      rw [UInt8.toNat_ofNat', ← heq]
    simp only [writeUint32, uint32OfBytes, UInt32.toNat_ofNat', List.cons.injEq, and_true]
    refine ⟨he _ _ ?_, he _ _ ?_, he _ _ ?_, he _ _ ?_⟩ <;> omega

section Readers

variable (validUTF8 : Text → Bool) (packet : UInt8) (field : String)

def readByte : Reader WireError UInt8 :=
  Reader.next (malformed packet field "field is truncated")

def readBytes (count : Nat) : Reader WireError (List UInt8) :=
  Reader.take (malformed packet field "field is truncated") count

def readUint16 : Reader WireError UInt16 := do
  let bytes ← readBytes packet field 2
  return uint16OfBytes bytes

def readUint32 : Reader WireError UInt32 := do
  let bytes ← readBytes packet field 4
  return uint32OfBytes bytes

def readBinary : Reader WireError Text := do
  let length ← readUint16 packet (field ++ " length")
  readBytes packet field length.toNat

def readString : Reader WireError Text := do
  let data ← readBinary packet field
  ensure (validUTF8 data) (malformed packet field "malformed UTF-8 string")
  ensure (!data.contains 0) (malformed packet field "UTF-8 string contains null character")
  return data

def writeBinary (value : Text) : Except WireError (List UInt8) := do
  ensure (decide (value.length ≤ 65535))
    (malformed packet field "binary data exceeds two-byte length prefix")
  return writeUint16 (UInt16.ofNat value.length) ++ value

def writeString (value : Text) : Except WireError (List UInt8) := do
  ensure (decide (value.length ≤ 65535))
    (malformed packet field "UTF-8 string exceeds two-byte length prefix")
  ensure (validUTF8 value) (malformed packet field "malformed UTF-8 string")
  ensure (!value.contains 0) (malformed packet field "UTF-8 string contains null character")
  return writeUint16 (UInt16.ofNat value.length) ++ value

/-! ## Exactness -/

variable {validUTF8 packet} {field : String} {input rest : List UInt8}

theorem readByte_eq_ok {byte : UInt8} :
    readByte packet field input = .ok (byte, rest) ↔ input = byte :: rest :=
  next_eq_ok

theorem readUint16_eq_ok {value : UInt16} :
    readUint16 packet field input = .ok (value, rest) ↔ input = writeUint16 value ++ rest := by
  simp only [readUint16, readBytes, bind_eq_ok, pure_eq_ok, take_eq_ok]
  constructor
  · rintro ⟨bytes, mid, ⟨two, rfl⟩, rfl, rfl⟩
    rw [writeUint16_ofBytes two]
  · rintro rfl
    exact ⟨_, rest, ⟨rfl, rfl⟩, (uint16OfBytes_write value).symm, rfl⟩

theorem readUint32_eq_ok {value : UInt32} :
    readUint32 packet field input = .ok (value, rest) ↔ input = writeUint32 value ++ rest := by
  simp only [readUint32, readBytes, bind_eq_ok, pure_eq_ok, take_eq_ok]
  constructor
  · rintro ⟨bytes, mid, ⟨hf, rfl⟩, rfl, rfl⟩
    rw [writeUint32_ofBytes hf]
  · rintro rfl
    exact ⟨_, rest, ⟨rfl, rfl⟩, (uint32OfBytes_write value).symm, rfl⟩

def prefixed (value : Text) : List UInt8 := writeUint16 (UInt16.ofNat value.length) ++ value

variable {value : Text}

theorem readBinary_eq_ok : readBinary packet field input = .ok (value, rest) ↔
      value.length ≤ 65535 ∧ input = prefixed value ++ rest := by
  simp only [readBinary, readBytes, bind_eq_ok, readUint16_eq_ok, take_eq_ok]
  constructor
  · rintro ⟨length, mid, rfl, he, rfl⟩
    have hb := length.toNat_lt
    have exact' : UInt16.ofNat value.length = length := by
      rw [he, UInt16.ofNat_toNat]
    refine ⟨by omega, ?_⟩
    rw [prefixed, exact', append_assoc]
  · rintro ⟨hb, rfl⟩
    refine ⟨UInt16.ofNat value.length, value ++ rest, append_assoc _ _ _, ?_, rfl⟩
    rw [UInt16.toNat_ofNat']
    omega

theorem writeBinary_eq_ok {bytes : List UInt8} :
    writeBinary packet field value = .ok bytes ↔ value.length ≤ 65535 ∧ bytes = prefixed value := by
  simp only [writeBinary, exceptBind_eq_ok, ensure_eq_ok, decide_eq_true_eq, prefixed]
  constructor
  · rintro ⟨-, hb, he⟩
    exact ⟨hb, (Except.ok.inj he).symm⟩
  · rintro ⟨hb, rfl⟩
    exact ⟨(), hb, rfl⟩

def ValidText (validUTF8 : Text → Bool) (value : Text) : Prop :=
  value.length ≤ 65535 ∧ validUTF8 value = true ∧ value.contains 0 = false

theorem readString_eq_ok : readString validUTF8 packet field input = .ok (value, rest) ↔
      ValidText validUTF8 value ∧ input = prefixed value ++ rest := by
  simp only [readString, bind_eq_ok, readBinary_eq_ok, lift_eq_ok, ensure_eq_ok,
    pure_eq_ok, ValidText]
  constructor
  · rintro ⟨data, _, ⟨hb, rfl⟩, -, _, ⟨hu, rfl⟩, -, _, ⟨hc, rfl⟩, rfl, rfl⟩
    exact ⟨⟨hb, hu, by simpa using hc⟩, rfl⟩
  · rintro ⟨⟨hb, hu, hc⟩, rfl⟩
    exact ⟨value, rest, ⟨hb, rfl⟩, (), rest, ⟨hu, rfl⟩, (), rest, ⟨by simpa using hc, rfl⟩,
      rfl, rfl⟩

theorem writeString_eq_ok {bytes : List UInt8} :
    writeString validUTF8 packet field value = .ok bytes ↔
      ValidText validUTF8 value ∧ bytes = prefixed value := by
  simp only [writeString, exceptBind_eq_ok, ensure_eq_ok, decide_eq_true_eq, prefixed, ValidText]
  constructor
  · rintro ⟨-, hb, -, hu, -, hc, he⟩
    exact ⟨⟨hb, hu, by simpa using hc⟩, (Except.ok.inj he).symm⟩
  · rintro ⟨⟨hb, hu, hc⟩, rfl⟩
    exact ⟨(), hb, (), hu, (), by simpa using hc, rfl⟩

end Readers

/-! ## Variable byte integers -/

def maxRemainingLength : Nat := 268435455

def minimalVBIBytes (value : Nat) : Nat :=
  if value < 128 then 1 else if value < 16384 then 2 else if value < 2097152 then 3 else 4

/-- The base-128 digits of a length, the lowest first, all but the last one marked; four
digits hold every length up to the maximum. -/
def vbiDigits : Nat → Nat → List UInt8
  | 0, _ => []
  | count + 1, length =>
    if length / 128 = 0 then [UInt8.ofNat (length % 128)]
    else UInt8.ofNat (length % 128 + 128) :: vbiDigits count (length / 128)

def encodeRemainingLength (length : Int) : Except WireError (List UInt8) := do
  ensure (decide (0 ≤ length) && decide (length ≤ maxRemainingLength))
    (malformed 0 "remaining length" "remaining length exceeds MQTT maximum")
  return vbiDigits 4 length.toNat

def writeVBI (packet : UInt8) (field : String) (value : Int) : Except WireError (List UInt8) :=
  match encodeRemainingLength value with
  | .error err => .error (malformed packet field err.error)
  | .ok bytes => .ok bytes

/-- The errors of the two places that read a variable byte integer. -/
structure VBIErrors (ε : Type) where
  truncated : ε
  exceeds : ε
  notMinimal : ε
  unterminated : ε

/-- The digits from the given width on; `count` is how many may follow. -/
def readDigits {ε : Type} (errors : VBIErrors ε) :
    (count width value multiplier : Nat) → Reader ε (Nat × Nat)
  | 0, _, _, _ => fun _ => .error errors.unterminated
  | count + 1, width, value, multiplier => do
      let digit ← Reader.next errors.truncated
      let value := value + digit.toNat % 128 * multiplier
      ensure (decide (value ≤ maxRemainingLength)) errors.exceeds
      if digit.toNat < 128 then do
        ensure (decide (width = minimalVBIBytes value)) errors.notMinimal
        return (value, width)
      else readDigits errors count (width + 1) value (multiplier * 128)

def readVBI (packet : UInt8) (field : String) : Reader WireError Nat := do
  let (value, _) ← readDigits
    { truncated := malformed packet field "field is truncated"
      exceeds := malformed packet field "variable byte integer exceeds MQTT maximum"
      notMinimal := malformed packet field "variable byte integer is not minimally encoded"
      unterminated := malformed packet field "malformed variable byte integer" } 4 1 0 1
  return value

/-! ### Exactness of the digits -/

section Digits

variable {ε : Type} {errors : VBIErrors ε} {count width value multiplier : Nat}

theorem vbiDigits_length_pos {length : Nat} (hp : 0 < count) :
    0 < (vbiDigits count length).length := by
  obtain ⟨count, rfl⟩ := Nat.exists_eq_succ_of_ne_zero hp.ne'
  rw [vbiDigits]
  split <;> simp

theorem vbiDigits_length_mono {shorter longer : Nat} (hb : shorter ≤ longer) :
    (vbiDigits count shorter).length ≤ (vbiDigits count longer).length := by
  induction count generalizing shorter longer with
  | zero => rfl
  | succ count ih =>
    have hd : shorter / 128 ≤ longer / 128 := Nat.div_le_div_right hb
    by_cases hs : shorter / 128 = 0
    · have one : (vbiDigits (count + 1) shorter).length = 1 := by
        rw [vbiDigits, if_pos hs, length_singleton]
      rw [one]
      exact vbiDigits_length_pos (Nat.succ_pos count)
    · have hl : longer / 128 ≠ 0 := by omega
      rw [vbiDigits, vbiDigits, if_neg hs, if_neg hl, length_cons, length_cons]
      exact Nat.succ_le_succ (ih hd)

theorem vbiDigits_small {digit : Nat} (hs : digit < 128) :
    vbiDigits (count + 1) digit = [UInt8.ofNat digit] := by
  rw [vbiDigits, if_pos (by omega), Nat.mod_eq_of_lt hs]

theorem vbiDigits_large {low high : Nat} (hs : low < 128) (hm : high ≠ 0) :
    vbiDigits (count + 1) (low + 128 * high) = UInt8.ofNat (low + 128) :: vbiDigits count high := by
  have hq : (low + 128 * high) / 128 = high := by omega
  have hr : (low + 128 * high) % 128 = low := by omega
  rw [vbiDigits, hq, if_neg hm, hr]

/-- The widths at which a value of so many digits is minimal. -/
theorem minimal_iff_last_digit {digit : Nat} (first : 1 ≤ width) (hl : width ≤ 4)
    (hb : value < 128 ^ (width - 1)) (digLt : digit < 128) :
    width = minimalVBIBytes (value + digit * 128 ^ (width - 1)) ↔ width = 1 ∨ digit ≠ 0 := by
  have hw : width = 1 ∨ width = 2 ∨ width = 3 ∨ width = 4 := by omega
  unfold minimalVBIBytes
  obtain rfl | rfl | rfl | rfl := hw <;> split_ifs <;> omega

theorem carry_lt {digit : Nat} (hb : value < multiplier) (digLt : digit < 128) :
    value + digit * multiplier < multiplier * 128 := by
  calc value + digit * multiplier < multiplier + digit * multiplier := by omega
    _ = (digit + 1) * multiplier := by ring
    _ ≤ 128 * multiplier := Nat.mul_le_mul_right multiplier digLt
    _ = multiplier * 128 := Nat.mul_comm _ _

theorem value_le_max {missing : Nat} (ha : width + (count + 1) = 5) (first : 1 ≤ width)
    (hp : multiplier = 128 ^ (width - 1)) (below : value < multiplier)
    (hb : missing < 128 ^ (count + 1)) : value + missing * multiplier ≤ maxRemainingLength := by
  have ht : 128 ^ (count + 1) * multiplier = maxRemainingLength + 1 := by
    rw [hp, ← Nat.pow_add, show count + 1 + (width - 1) = 4 by omega]
    rfl
  have hc : (missing + 1) * multiplier ≤ 128 ^ (count + 1) * multiplier :=
    Nat.mul_le_mul_right multiplier hb
  rw [Nat.succ_mul] at hc
  omega

theorem next_power (first : 1 ≤ width) (hp : multiplier = 128 ^ (width - 1)) :
    multiplier * 128 = 128 ^ (width + 1 - 1) := by
  rw [hp, ← Nat.pow_succ, Nat.succ_eq_add_one, Nat.sub_add_cancel first, Nat.add_sub_cancel]

variable {input rest : List UInt8}

/-- The reader takes the digits of the missing part of the value, and refuses a missing
part of zero unless it is the whole value. -/
theorem readDigits_eq_ok {res found : Nat} (ha : width + count = 5) (first : 1 ≤ width)
    (hp : multiplier = 128 ^ (width - 1)) (below : value < multiplier) :
    readDigits errors count width value multiplier input = .ok ((res, found), rest) ↔
      ∃ missing, missing < 128 ^ count ∧ input = vbiDigits count missing ++ rest ∧
        res = value + missing * multiplier ∧
        found + 1 = width + (vbiDigits count missing).length ∧ (width = 1 ∨ missing ≠ 0) := by
  induction count generalizing width value multiplier input with
  | zero =>
    refine iff_of_false (fun hi => by cases hi) ?_
    rintro ⟨missing, hb, -, -, -, hw⟩
    omega
  | succ count ih =>
    have hl : width ≤ 4 := by omega
    simp only [readDigits, bind_eq_ok, next_eq_ok, lift_eq_ok, ensure_eq_ok, decide_eq_true_eq]
    constructor
    · rintro ⟨digit, _, rfl, -, _, ⟨-, rfl⟩, hr⟩
      have digLt := digit.toNat_lt
      split at hr
      · case isTrue hs =>
          obtain ⟨-, _, ⟨least, rfl⟩, he, rfl⟩ := by
            simpa only [bind_eq_ok, lift_eq_ok, ensure_eq_ok, decide_eq_true_eq,
              pure_eq_ok] using hr
          obtain ⟨rfl, rfl⟩ := Prod.mk.inj he
          rw [Nat.mod_eq_of_lt hs] at least ⊢
          rw [hp, minimal_iff_last_digit first hl (hp ▸ below) hs] at least
          refine ⟨digit.toNat, ?_, ?_, rfl, ?_, least⟩
          · exact hs.trans_le (Nat.le_self_pow (Nat.succ_ne_zero count) 128)
          · rw [vbiDigits_small hs, UInt8.ofNat_toNat]
            rfl
          · rw [vbiDigits_small hs, length_singleton]
      · case isFalse large =>
          have low : digit.toNat % 128 = digit.toNat - 128 := by omega
          have nextBelow : value + digit.toNat % 128 * multiplier < multiplier * 128 :=
            carry_lt below (Nat.mod_lt _ (by decide))
          obtain ⟨high, hb, rfl, rfl, width', hw⟩ := (ih (by omega) (by omega)
              (next_power first hp) nextBelow).mp hr
          have hm : high ≠ 0 := by omega
          have hd := @vbiDigits_large count (digit.toNat % 128) high (by omega) hm
          refine ⟨digit.toNat % 128 + 128 * high, ?_, ?_, ?_, ?_, .inr (by omega)⟩
          · rw [Nat.pow_succ]
            omega
          · rw [hd, show digit.toNat % 128 + 128 = digit.toNat by omega, UInt8.ofNat_toNat]
            rfl
          · ring
          · rw [hd, length_cons]
            omega
    · rintro ⟨missing, hb, rfl, rfl, hc, hw⟩
      have hf : value + missing * multiplier ≤ maxRemainingLength :=
        value_le_max ha first hp below hb
      by_cases hs : missing < 128
      · rw [vbiDigits_small hs] at hc ⊢
        have digit : (UInt8.ofNat missing).toNat = missing := by
          rw [UInt8.toNat_ofNat']
          omega
        refine ⟨_, _, rfl, (), rest, ⟨?_, rfl⟩, ?_⟩
        · rw [digit, Nat.mod_eq_of_lt hs]
          exact hf
        · rw [digit, if_pos hs, Nat.mod_eq_of_lt hs]
          have least : width = minimalVBIBytes (value + missing * multiplier) := by
            rw [hp]
            exact (minimal_iff_last_digit first hl (hp ▸ below) hs).mpr hw
          simp only [bind_eq_ok, lift_eq_ok, ensure_eq_ok, decide_eq_true_eq, pure_eq_ok]
          refine ⟨(), rest, ⟨least, rfl⟩, ?_, rfl⟩
          rw [length_singleton] at hc
          rw [Nat.succ.inj hc]
      · obtain ⟨low, high, lowLt, hm, rfl⟩ :
            ∃ low high, low < 128 ∧ high ≠ 0 ∧ missing = low + 128 * high :=
          ⟨missing % 128, missing / 128, by omega, by omega, by omega⟩
        rw [vbiDigits_large lowLt hm] at hc ⊢
        have digit : (UInt8.ofNat (low + 128)).toNat = low + 128 := by
          rw [UInt8.toNat_ofNat']
          omega
        have digitLow : (low + 128) % 128 = low := by omega
        have lower : low * multiplier ≤ (low + 128 * high) * multiplier :=
          Nat.mul_le_mul_right multiplier (by omega)
        refine ⟨_, _, rfl, (), _, ⟨?_, rfl⟩, ?_⟩
        · rw [digit, digitLow]
          omega
        · rw [digit, digitLow, if_neg (by omega)]
          rw [length_cons] at hc
          rw [Nat.pow_succ] at hb
          refine (ih (by omega) (by omega) (next_power first hp)
            (carry_lt below lowLt)).mpr ⟨high, by omega, rfl, by ring, by omega, .inr hm⟩

theorem readDigits_whole {length width : Nat} :
    readDigits errors 4 1 0 1 input = .ok ((length, width), rest) ↔
      length ≤ maxRemainingLength ∧ width = (vbiDigits 4 length).length ∧
        input = vbiDigits 4 length ++ rest := by
  rw [readDigits_eq_ok (rfl : 1 + 4 = 5) le_rfl (rfl : 1 = 128 ^ (1 - 1)) Nat.one_pos]
  constructor
  · rintro ⟨missing, hb, rfl, rfl, hc, -⟩
    rw [Nat.zero_add, Nat.mul_one]
    exact ⟨Nat.le_of_lt_succ hb, by omega, rfl⟩
  · rintro ⟨hb, rfl, rfl⟩
    exact ⟨length, Nat.lt_succ_of_le hb, rfl, by omega, Nat.add_comm _ _, .inl rfl⟩

theorem readVBI_eq_ok {packet : UInt8} {field : String} {length : Nat} :
    readVBI packet field input = .ok (length, rest) ↔
      length ≤ maxRemainingLength ∧ input = vbiDigits 4 length ++ rest := by
  simp only [readVBI, bind_eq_ok, pure_eq_ok, Prod.exists, readDigits_whole]
  constructor
  · rintro ⟨_, _, _, ⟨hb, -, rfl⟩, rfl, rfl⟩
    exact ⟨hb, rfl⟩
  · rintro ⟨hb, rfl⟩
    exact ⟨length, _, rest, ⟨hb, rfl, rfl⟩, rfl, rfl⟩

theorem encodeRemainingLength_eq_ok {length : Int} {bytes : List UInt8} :
    encodeRemainingLength length = .ok bytes ↔
      0 ≤ length ∧ length ≤ maxRemainingLength ∧ bytes = vbiDigits 4 length.toNat := by
  simp only [encodeRemainingLength, exceptBind_eq_ok, ensure_eq_ok, Bool.and_eq_true,
    decide_eq_true_eq]
  constructor
  · rintro ⟨-, ⟨hn, hb⟩, he⟩
    exact ⟨hn, hb, (Except.ok.inj he).symm⟩
  · rintro ⟨hn, hb, rfl⟩
    exact ⟨(), ⟨hn, hb⟩, rfl⟩

theorem writeVBI_eq_ok {packet : UInt8} {field : String} {length : Int} {bytes : List UInt8} :
    writeVBI packet field length = .ok bytes ↔
      0 ≤ length ∧ length ≤ maxRemainingLength ∧ bytes = vbiDigits 4 length.toNat := by
  rw [← encodeRemainingLength_eq_ok, writeVBI]
  cases encodeRemainingLength length <;> simp

end Digits

end SkyTree.Wire
