import SkyTree.Wire.Codec

/-!
# Variable byte integers

The encoder writes the shortest string of digits, and the two readers accept exactly the inputs
that begin with such a string.
-/

namespace SkyTree.Wire

open Foundation List

def vbiValue : List UInt8 → Option Nat
  | [] => none
  | digit :: rest =>
    if digit.toNat < 128 then if rest = [] then some digit.toNat else none
    else (vbiValue rest).map fun high => digit.toNat - 128 + 128 * high

structure MinimalEncoding (bytes : List UInt8) (value : Nat) : Prop where
  denotes : vbiValue bytes = some value
  shortest : ∀ other, vbiValue other = some value → bytes.length ≤ other.length

variable {count value : Nat}

theorem toNat_ofNat_of_lt (hb : value < 256) : (UInt8.ofNat value).toNat = value := by
  rw [UInt8.toNat_ofNat', Nat.mod_eq_of_lt hb]

theorem vbiValue_vbiDigits (hb : value < 128 ^ (count + 1)) :
    vbiValue (vbiDigits (count + 1) value) = some value := by
  induction count generalizing value with
  | zero =>
    have hs : value < 128 := by simpa using hb
    rw [vbiDigits_small hs, vbiValue, toNat_ofNat_of_lt (by omega), if_pos hs, if_pos rfl]
  | succ count ih =>
    by_cases hs : value < 128
    · rw [vbiDigits_small hs, vbiValue, toNat_ofNat_of_lt (by omega), if_pos hs, if_pos rfl]
    · obtain ⟨low, high, hl, rfl⟩ : ∃ low high, low < 128 ∧ value = low + 128 * high :=
        ⟨value % 128, value / 128, Nat.mod_lt _ (by decide), (Nat.mod_add_div value 128).symm⟩
      have hh : high < 128 ^ (count + 1) := by
        rw [pow_succ] at hb
        omega
      rw [vbiDigits_large hl (by omega), vbiValue, toNat_ofNat_of_lt (by omega),
        if_neg (by omega), ih hh, Option.map_some, Nat.add_sub_cancel]

theorem vbiDigits_shortest {bytes : List UInt8} (hb : value < 128 ^ (count + 1))
    (hv : vbiValue bytes = some value) : (vbiDigits (count + 1) value).length ≤ bytes.length ∧
      (bytes.length ≤ (vbiDigits (count + 1) value).length →
        bytes = vbiDigits (count + 1) value) := by
  induction bytes generalizing count value with
  | nil => cases hv
  | cons digit rest ih =>
    rw [vbiValue] at hv
    split_ifs at hv with hs hr
    · cases hv
      rw [vbiDigits_small hs, hr, UInt8.ofNat_toNat]
      exact ⟨le_rfl, fun _ => rfl⟩
    · obtain ⟨high, hh, rfl⟩ := Option.map_eq_some_iff.mp hv
      have hd := digit.toNat_lt
      by_cases hz : high = 0
      · subst hz
        have hp : rest ≠ [] := by
          rintro rfl
          cases hh
        have hl := length_pos_of_ne_nil hp
        rw [vbiDigits_small (by omega)]
        simp only [length_cons, length_nil]
        omega
      · cases count with
        | zero => omega
        | succ count =>
          have hk : high < 128 ^ (count + 1) := by
            rw [pow_succ] at hb
            omega
          obtain ⟨hle, heq⟩ := ih hk hh
          rw [vbiDigits_large (by omega) hz, Nat.sub_add_cancel (by omega), UInt8.ofNat_toNat]
          simp only [length_cons, List.cons.injEq, true_and]
          exact ⟨by omega, fun hl => heq (by omega)⟩

theorem minimalEncoding_iff {bytes : List UInt8} (hb : value ≤ maxRemainingLength) :
    MinimalEncoding bytes value ↔ bytes = vbiDigits 4 value := by
  have hp : value < 128 ^ (3 + 1) := Nat.lt_succ_of_le hb
  constructor
  · intro hm
    exact (vbiDigits_shortest hp hm.denotes).2 (hm.shortest _ (vbiValue_vbiDigits hp))
  · rintro rfl
    exact ⟨vbiValue_vbiDigits hp, fun other ho => (vbiDigits_shortest hp ho).1⟩

/-- Encoder and readers are inverse to each other, and the readers agree on every input. -/
theorem vbi_readers_exact (packet : UInt8) (field : String) :
    (∀ value : Nat, value ≤ 268435455 → ∃ bytes, encodeRemainingLength value = .ok bytes ∧
      ∀ rest, readVBI packet field (bytes ++ rest) = .ok (value, rest) ∧
        readRemainingLength (bytes ++ rest) = .ok ((value, bytes.length), rest)) ∧
    ∀ input : List UInt8, (∀ value rest, readVBI packet field input = .ok (value, rest) ↔
        ∃ width, readRemainingLength input = .ok ((value, width), rest)) ∧
      ((∃ result, readVBI packet field input = .ok result) ↔
        ∃ value ≤ 268435455, ∃ bytes, MinimalEncoding bytes value ∧ bytes <+: input) := by
  refine ⟨fun value hb => ⟨vbiDigits 4 value, ?_, fun rest => ⟨?_, ?_⟩⟩, fun input => ⟨?_, ?_⟩⟩
  · exact encodeRemainingLength_eq_ok.mpr ⟨Int.natCast_nonneg value, Int.ofNat_le.mpr hb, rfl⟩
  · exact readVBI_eq_ok.mpr ⟨hb, rfl⟩
  · exact readDigits_whole.mpr ⟨hb, rfl, rfl⟩
  · intro value rest
    simp only [readVBI_eq_ok, readRemainingLength, readDigits_whole]
    exact ⟨fun ⟨hb, he⟩ => ⟨_, hb, rfl, he⟩, fun ⟨_, hb, _, he⟩ => ⟨hb, he⟩⟩
  · constructor
    · rintro ⟨⟨value, rest⟩, hr⟩
      obtain ⟨hb, rfl⟩ := readVBI_eq_ok.mp hr
      exact ⟨value, hb, _, (minimalEncoding_iff hb).mpr rfl, prefix_append _ _⟩
    · rintro ⟨value, hb, bytes, hm, rest, rfl⟩
      obtain rfl := (minimalEncoding_iff hb).mp hm
      exact ⟨(value, rest), readVBI_eq_ok.mpr ⟨hb, rfl⟩⟩

end SkyTree.Wire
