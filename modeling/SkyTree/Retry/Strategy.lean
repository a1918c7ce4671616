import Mathlib

/-!
# Retry delays

Delays are 64-bit nanoseconds. The exponential strategy and the jitter compute with `float64`
values, which are rational numbers rounded after each operation, and convert back by truncation;
a number outside the 64-bit range is converted to anything.
-/

namespace SkyTree.Retry

/-- Rounding to the nearest `float64`, as far as the delays depend on it. -/
structure Rounding where
  round : ℚ → ℚ
  mono : Monotone round
  exact : ∀ x ∈ [0, 1, -1 / 2, -1], round x = x
  /-- Truncation of a `float64` is exact. -/
  floor : ∀ x, round ⌊round x⌋ = ⌊round x⌋

/-- What the strategies are configured with; `jitterFactor` and `taskKey` matter to the jitter. -/
structure Backoff extends Rounding where
  originalDelay : ℤ
  maxDelay : ℤ
  factor : ℚ
  increment : ℤ
  jitterFactor : ℚ
  taskKey : String

namespace Backoff

def int64 (value : ℤ) : ℤ := value.bmod (2 ^ 64)

/-- The conversion of a `float64` to a duration. -/
def toDuration (outside : ℚ → ℤ) (x : ℚ) : ℤ :=
  let whole := if 0 ≤ x then ⌊x⌋ else ⌈x⌉
  if -2 ^ 63 ≤ whole ∧ whole < 2 ^ 63 then whole else outside x

variable (b : Backoff)

def cap (delay : ℤ) : ℤ := if 0 < b.maxDelay ∧ b.maxDelay < delay then b.maxDelay else delay

def scaled (delay : ℤ) (scale : ℚ) : ℚ := b.round (b.round delay * scale)

def exponentialLoop (outside : ℚ → ℤ) : ℕ → ℤ
  | 0 => b.originalDelay
  | n + 1 =>
    toDuration outside (b.scaled (exponentialLoop outside n) (if b.factor ≤ 0 then 2 else b.factor))

def exponentialDelay (outside : ℚ → ℤ) (retryCount : ℕ) : ℤ :=
  b.cap (b.exponentialLoop outside retryCount)

def step : ℤ := if b.increment ≤ 0 then b.originalDelay else b.increment

def linearDelay (_ : ℚ → ℤ) (retryCount : ℕ) : ℤ :=
  b.cap (int64 (b.originalDelay + int64 (retryCount * b.step)))

def seed : ℤ :=
  let hash := b.taskKey.toList.foldl (fun seed c => int64 (int64 (seed * 31) + c.toNat)) 0
  int64 (int64 (hash * 1103515245) + 12345) % 2 ^ 31

def jitterScale : ℚ :=
  let factor := if b.jitterFactor ≤ 0 then b.round (1 / 10) else b.jitterFactor
  let factor := if 1 < factor then 1 else factor
  let jitter := b.round ((b.seed % 1000 : ℤ) / 1000)
  b.round (1 + b.round (b.round (b.round (jitter - 1 / 2) * 2) * factor))

def jittered (outside : ℚ → ℤ) (baseDelay : ℤ) : ℤ :=
  let finalDelay := toDuration outside (b.scaled baseDelay b.jitterScale)
  if finalDelay < 0 then baseDelay.tdiv 2 else finalDelay

/-- A positive base delay and maximum, a factor of at least one, durations of 64 bits. -/
structure Configured : Prop where
  originalDelay : 0 < b.originalDelay ∧ b.originalDelay < 2 ^ 63
  maxDelay : 0 < b.maxDelay ∧ b.maxDelay < 2 ^ 63
  factor : 1 ≤ b.factor
  increment : b.increment < 2 ^ 63

/-- Up to a retry count the delays are positive and within the maximum, with and without jitter,
and those without jitter do not decrease, whatever the conversions yield. -/
def Sound (delays : (ℚ → ℤ) → ℕ → ℤ) (retries : ℕ) : Prop :=
  ∀ outside, ∀ n ≤ retries,
    (0 < delays outside n ∧ delays outside n ≤ b.maxDelay) ∧
    (0 < b.jittered outside (delays outside n) ∧
      b.jittered outside (delays outside n) ≤ b.maxDelay) ∧
    ∀ m ≤ n, delays outside m ≤ delays outside n

def grown : ℕ → ℤ
  | 0 => b.originalDelay
  | n + 1 => ⌊b.scaled (grown n) b.factor⌋

def summed (retryCount : ℕ) : ℤ := b.originalDelay + retryCount * b.step

/-- Over all integers the delays stay in the 64-bit range, the first one does not fall below the
original delay, and the jitter takes none of them to zero or above the maximum. -/
def Fits (ideal : ℕ → ℤ) (retries : ℕ) : Prop :=
  (∀ n ≤ retries, ideal n < 2 ^ 63) ∧
    (0 < retries → min (ideal 0) b.maxDelay ≤ ideal 1) ∧
    1 ≤ b.scaled (min (ideal 0) b.maxDelay) b.jitterScale ∧
    b.scaled (min (ideal retries) b.maxDelay) b.jitterScale < b.maxDelay + 1

instance (ideal : ℕ → ℤ) (retries : ℕ) : Decidable (b.Fits ideal retries) :=
  inferInstanceAs (Decidable (_ ∧ _))

theorem le_round {c x : ℚ} (hc : c ∈ [0, 1, -1 / 2, -1]) (hx : c ≤ x) : c ≤ b.round x :=
  b.exact c hc ▸ b.mono hx

theorem jitterScale_nonneg : 0 ≤ b.jitterScale := by
  have hj : 0 ≤ b.round ((b.seed % 1000 : ℤ) / 1000) := by
    have : (0 : ℤ) ≤ b.seed % 1000 := Int.emod_nonneg _ (by decide)
    exact b.le_round (by simp) (by positivity)
  unfold jitterScale
  generalize b.round ((b.seed % 1000 : ℤ) / 1000) = jitter at hj ⊢
  have hh := b.le_round (c := -1 / 2) (x := jitter - 1 / 2) (by simp) (by linarith)
  have hy := b.le_round (c := -1) (x := b.round (jitter - 1 / 2) * 2) (by simp) (by linarith)
  have hf : 0 ≤ b.round (1 / 10) ∧ b.round (1 / 10) ≤ 1 :=
    ⟨b.le_round (by simp) (by norm_num), (b.mono (by norm_num)).trans_eq (b.exact 1 (by simp))⟩
  refine b.le_round (by simp) (neg_le_iff_add_nonneg'.mp (b.le_round (by simp) ?_))
  split_ifs <;> nlinarith

theorem scaled_mono {scale : ℚ} (hs : 0 ≤ scale) : Monotone (b.scaled · scale) := by
  intro x y hx
  exact b.mono (mul_le_mul_of_nonneg_right (b.mono (Int.cast_le.mpr hx)) hs)

theorem scaled_nonneg {delay : ℤ} {scale : ℚ} (hd : 0 ≤ delay) (hs : 0 ≤ scale) :
    0 ≤ b.scaled delay scale :=
  b.le_round (by simp) (mul_nonneg (b.le_round (by simp) (by exact_mod_cast hd)) hs)

theorem toDuration_floor {outside : ℚ → ℤ} {x : ℚ} (hx : 0 ≤ x) :
    toDuration outside x = if ⌊x⌋ < 2 ^ 63 then ⌊x⌋ else outside x := by
  have := Int.floor_nonneg.mpr hx
  simp only [toDuration, if_pos hx]
  split <;> split <;> first | rfl | omega

variable {b}

theorem jittered_iff (hc : b.Configured) {delay : ℤ} (hd : 0 < delay) :
    (∀ outside, 0 < b.jittered outside delay ∧ b.jittered outside delay ≤ b.maxDelay) ↔
      1 ≤ b.scaled delay b.jitterScale ∧ b.scaled delay b.jitterScale < b.maxDelay + 1 := by
  have hx := b.scaled_nonneg hd.le b.jitterScale_nonneg
  have hf := Int.floor_nonneg.mpr hx
  have hm := hc.maxDelay.2
  have hl : b.scaled delay b.jitterScale < b.maxDelay + 1 ↔
      ⌊b.scaled delay b.jitterScale⌋ < b.maxDelay + 1 := by
    rw [Int.floor_lt]
    push_cast
    rfl
  rw [hl, ← Int.cast_one, ← Int.le_floor]
  simp only [jittered, toDuration_floor hx]
  constructor
  · intro hj
    have hz := hj fun _ => 0
    split_ifs at hz <;> omega
  · intro hb outside
    rw [if_pos (show ⌊b.scaled delay b.jitterScale⌋ < 2 ^ 63 by omega), if_neg (by omega)]
    omega

/-- The two extreme delays decide about the jitter; the first delay out of range is lost. -/
theorem sound_iff {delays : (ℚ → ℤ) → ℕ → ℤ} {ideal : ℕ → ℤ} (hc : b.Configured)
    (start : 0 < ideal 0 ∧ ideal 0 < 2 ^ 63) (hg : ∀ n, ideal (n + 1) ≤ ideal (n + 2))
    (he : ∀ outside n, (∀ m ≤ n, ideal m < 2 ^ 63) → delays outside n = min (ideal n) b.maxDelay)
    (hl : ∀ n, (∀ m ≤ n, ideal m < 2 ^ 63) → 2 ^ 63 ≤ ideal (n + 1) →
      delays (fun _ => 0) (n + 1) ≤ 0) (retries : ℕ) :
    b.Sound delays retries ↔ b.Fits ideal retries := by
  have mono := b.scaled_mono b.jitterScale_nonneg
  constructor
  · intro hs
    have hb (n : ℕ) : n ≤ retries → ∀ m ≤ n, ideal m < 2 ^ 63 := by
      induction n with
      | zero => exact fun _ m hm => Nat.le_zero.mp hm ▸ start.2
      | succ n ih =>
        intro hn m hm
        by_contra! hlt
        obtain rfl : m = n + 1 := by
          by_contra hne
          exact absurd (ih (by omega) m (by omega)) hlt.not_gt
        exact (hl n (ih (by omega)) hlt).not_gt (hs _ _ hn).1.1
    have hd {n : ℕ} (hn : n ≤ retries) (outside : ℚ → ℤ) := he outside n (hb n hn)
    have hp {n : ℕ} (hn : n ≤ retries) := hd hn (fun _ => 0) ▸ (hs _ n hn).1.1
    have hj {n : ℕ} (hn : n ≤ retries) := (jittered_iff hc (hp hn)).mp fun outside =>
      hd hn outside ▸ (hs outside n hn).2.1
    refine ⟨hb retries le_rfl, fun one => ?_, (hj (Nat.zero_le _)).1, (hj le_rfl).2⟩
    have first := (hs (fun _ => 0) 1 one).2.2 0 zero_le_one
    rw [hd one, hd (Nat.zero_le _)] at first
    exact first.trans (min_le_left _ _)
  · rintro ⟨hb, hf, hlow, hhigh⟩ outside n hn
    have hm {k m : ℕ} (le : k ≤ m) (bound : m ≤ retries) :
        min (ideal k) b.maxDelay ≤ min (ideal m) b.maxDelay := by
      induction m, le using Nat.le_induction with
      | base => rfl
      | succ m _ ih =>
        refine (ih (by omega)).trans (le_min ?_ (min_le_right _ _))
        cases m with
        | zero => exact hf bound
        | succ m => exact (min_le_left _ _).trans (hg m)
    have hd {m : ℕ} (bound : m ≤ retries) := he outside m fun k hk => hb k (hk.trans bound)
    have hp := (lt_min start.1 hc.maxDelay.1).trans_le (hm (Nat.zero_le n) hn)
    rw [hd hn]
    refine ⟨⟨hp, min_le_right _ _⟩, ?_, fun m upTo => hd (upTo.trans hn) ▸ hm upTo hn⟩
    exact (jittered_iff hc hp).mpr
      ⟨hlow.trans (mono (hm (Nat.zero_le n) hn)), (mono (hm hn le_rfl)).trans_lt hhigh⟩ outside

/-! ## The two strategies -/

theorem Configured.cap_eq (hc : b.Configured) (delay : ℤ) : b.cap delay = min delay b.maxDelay := by
  have := hc.maxDelay.1
  unfold cap
  split <;> omega

theorem Configured.grown_pos (hc : b.Configured) (n : ℕ) : 0 < b.grown n := by
  induction n with
  | zero => exact hc.originalDelay.1
  | succ n ih =>
    have hr : 1 ≤ b.round (b.grown n) := b.le_round (by simp) (by exact_mod_cast ih)
    have hs : 1 ≤ b.scaled (b.grown n) b.factor :=
      b.le_round (by simp) (one_le_mul_of_one_le_of_one_le hr hc.factor)
    exact Int.floor_pos.mpr hs

/-- Only the first delay may fall, when the original delay is no `float64`. -/
theorem Configured.grown_le (hc : b.Configured) (n : ℕ) : b.grown (n + 1) ≤ b.grown (n + 2) := by
  have hx : b.round (b.grown (n + 1)) = b.grown (n + 1) := b.floor _
  refine Int.le_floor.mpr ?_
  rw [scaled, hx]
  nth_rewrite 1 [← hx]
  exact b.mono (le_mul_of_one_le_right (by exact_mod_cast (hc.grown_pos _).le) hc.factor)

theorem Configured.convert_eq (hc : b.Configured) (outside : ℚ → ℤ) (n : ℕ) :
    toDuration outside (b.scaled (b.grown n) (if b.factor ≤ 0 then 2 else b.factor)) =
      if b.grown (n + 1) < 2 ^ 63 then b.grown (n + 1)
      else outside (b.scaled (b.grown n) b.factor) := by
  have hf : ¬b.factor ≤ 0 := by linarith only [hc.factor]
  have hx := b.scaled_nonneg (hc.grown_pos n).le (zero_le_one.trans hc.factor)
  rw [if_neg hf, toDuration_floor hx, grown]

theorem Configured.loop_eq (hc : b.Configured) (outside : ℚ → ℤ) {n : ℕ}
    (hb : ∀ m ≤ n, b.grown m < 2 ^ 63) : b.exponentialLoop outside n = b.grown n := by
  induction n with
  | zero => rfl
  | succ n ih =>
    rw [exponentialLoop, ih fun m hm => hb m (by omega), hc.convert_eq]
    exact if_pos (hb (n + 1) le_rfl)

theorem exponential_sound_iff (hc : b.Configured) (retries : ℕ) :
    b.Sound b.exponentialDelay retries ↔ b.Fits b.grown retries := by
  refine sound_iff hc hc.originalDelay hc.grown_le (fun outside n hb => ?_) (fun n hb hl => ?_) _
  · rw [exponentialDelay, hc.loop_eq outside hb, hc.cap_eq]
  · rw [exponentialDelay, exponentialLoop, hc.loop_eq _ hb, hc.convert_eq, if_neg hl.not_gt,
      hc.cap_eq]
    exact min_le_left _ _

theorem linear_sound_iff (hc : b.Configured) (retries : ℕ) :
    b.Sound b.linearDelay retries ↔ b.Fits b.summed retries := by
  have ho := hc.originalDelay
  have step' : 0 < b.step ∧ b.step < 2 ^ 63 := by
    have := hc.increment
    unfold step
    split <;> omega
  have hw (outside : ℚ → ℤ) (n : ℕ) :
      b.linearDelay outside n = min (int64 (b.summed n)) b.maxDelay := by
    rw [linearDelay, hc.cap_eq, int64, int64, Int.add_bmod_bmod, int64, summed]
  have hs (n : ℕ) : b.summed (n + 1) = b.summed n + b.step := by
    simp only [summed]
    push_cast
    ring
  have hp (n : ℕ) : 0 < b.summed n := by
    have := mul_nonneg n.cast_nonneg step'.1.le
    unfold summed
    omega
  refine sound_iff hc (by simpa [summed] using ho) (fun n => ?_) (fun outside n hb => ?_)
    (fun n hb hl => ?_) _
  · rw [hs (n + 1)]
    omega
  · rw [hw, int64, Int.bmod_eq_of_le (by have := hp n; omega) (by have := hb n le_rfl; omega)]
  · have := hb n le_rfl
    have := hs n
    rw [hw, int64, Int.bmod_def]
    split <;> omega

/-- The exponential and the linear strategy behave, with and without jitter, for as long as their
delays over all integers fit. -/
theorem delays_sound_iff (b : Backoff) (hc : b.Configured) (retries : ℕ) :
    (b.Sound b.exponentialDelay retries ↔ b.Fits b.grown retries) ∧
      (b.Sound b.linearDelay retries ↔ b.Fits b.summed retries) :=
  ⟨exponential_sound_iff hc retries, linear_sound_iff hc retries⟩

def fromOneSecond (taskKey : String) : Backoff where
  round := id
  mono := monotone_id
  exact _ _ := rfl
  floor _ := rfl
  originalDelay := 10 ^ 9
  maxDelay := 300 * 10 ^ 9
  factor := 2
  increment := 10 ^ 9
  jitterFactor := 1 / 10
  taskKey := taskKey

theorem fromOneSecond_configured (taskKey : String) : (fromOneSecond taskKey).Configured :=
  ⟨by norm_num [fromOneSecond], by norm_num [fromOneSecond], by norm_num [fromOneSecond],
    by norm_num [fromOneSecond]⟩

theorem delays_sound_three_retries :
    (fromOneSecond "").Sound (fromOneSecond "").exponentialDelay 3 ∧
      (fromOneSecond "").Sound (fromOneSecond "").linearDelay 3 :=
  have h := delays_sound_iff _ (fromOneSecond_configured "") 3
  ⟨h.1.mpr (by decide +kernel), h.2.mpr (by decide +kernel)⟩

/-- The product of the 34th retry is out of range; the jitter exceeds the maximum. -/
theorem delays_unsound : ¬(fromOneSecond "").Sound (fromOneSecond "").exponentialDelay 34 ∧
      ¬(fromOneSecond "b").Sound (fromOneSecond "b").linearDelay 299 := by
  rw [exponential_sound_iff (fromOneSecond_configured _),
    linear_sound_iff (fromOneSecond_configured _)]
  exact ⟨fun h => absurd (h.1 34 le_rfl) (by decide +kernel),
    fun h => absurd h.2.2.2 (by decide +kernel)⟩

end Backoff

end SkyTree.Retry
