import Mathlib.Tactic.Ring
import MultiCluster.Retry

/-! The waits of a schedule, counted in machine words. A duration is held as seconds and
nanoseconds, and the wait before a retry is the base times a power of two that is shifted into 32
bits. The words never wrap: they hold the number that is meant, or the largest duration where that
number is too large. So the waits double up to the 32nd retry, never decrease, and never exceed the
cap. -/
namespace MultiCluster

/-! ### Checked words -/

namespace Checked

def mul (a b : UInt64) : Option UInt64 :=
  if a.toNat * b.toNat < UInt64.size then some (a * b) else none

def add (a b : UInt64) : Option UInt64 :=
  if a.toNat + b.toNat < UInt64.size then some (a + b) else none

def shift (a count : UInt32) : Option UInt32 :=
  if count < 32 then some (a <<< count) else none

def pred (a : UInt32) : UInt32 := if a = 0 then 0 else a - 1

def held (n : Nat) : Option Nat := if n < UInt64.size then some n else none

variable {a b : UInt64} {n : UInt32}

theorem toNat_mul : (mul a b).map UInt64.toNat = held (a.toNat * b.toNat) := by
  unfold mul held
  split
  · next fits => simp [UInt64.toNat_mul, Nat.mod_eq_of_lt fits]
  · rfl

theorem toNat_add : (add a b).map UInt64.toNat = held (a.toNat + b.toNat) := by
  unfold add held
  split
  · next fits => simp [UInt64.toNat_add, Nat.mod_eq_of_lt fits]
  · rfl

theorem held_eq_none_iff {n : Nat} : held n = none ↔ UInt64.size ≤ n := by
  simp [held]

theorem held_eq_some_iff {n m : Nat} : held n = some m ↔ n < UInt64.size ∧ n = m := by
  simp [held]

theorem toNat_shift_one (count : UInt32) : (shift 1 count).map UInt32.toNat =
    if count.toNat < 32 then some (2 ^ count.toNat) else none := by
  have unfolded : (count < 32) = (count.toNat < 32) := rfl
  simp only [shift, unfolded]
  split
  · next small =>
    have fits : 1 <<< count.toNat < 2 ^ 32 := by
      rw [Nat.one_shiftLeft]
      exact Nat.pow_lt_pow_right (by decide) small
    have shifted : (1 <<< count).toNat = 1 <<< (count.toNat % 32) % 2 ^ 32 :=
      UInt32.toNat_shiftLeft 1 count
    rw [Nat.mod_eq_of_lt small, Nat.mod_eq_of_lt fits, Nat.one_shiftLeft] at shifted
    exact congrArg some shifted
  · rfl

theorem toNat_pred : (pred n).toNat = n.toNat - 1 := by
  unfold pred
  by_cases none : n = 0
  · simp [none]
  · have positive : 1 ≤ n.toNat := Nat.pos_of_ne_zero fun zero => none (UInt32.toNat_inj.mp zero)
    rw [if_neg none]
    exact UInt32.toNat_sub_of_le n 1 positive

end Checked

/-! ### Durations in words -/

/-- A duration as it is held: whole seconds, and the nanoseconds beyond them. -/
structure Span where
  seconds : UInt64
  nanos : UInt32
  below : nanos.toNat < 1000000000
  deriving DecidableEq, Repr

namespace Span

variable {s t : Span} {factor : UInt32}

def duration (s : Span) : Duration := ⟨s.seconds.toNat * 1000000000 + s.nanos.toNat⟩

def largest : Span := ⟨18446744073709551615, 999999999, by decide⟩

def fine (s : Span) (factor : UInt32) : UInt64 := s.nanos.toUInt64 * factor.toUInt64

theorem toNat_fine : (s.fine factor).toNat = s.nanos.toNat * factor.toNat := by
  have fits : s.nanos.toNat * factor.toNat < 2 ^ 64 := by
    calc s.nanos.toNat * factor.toNat
        ≤ 1000000000 * 2 ^ 32 := Nat.mul_le_mul s.below.le factor.toNat_lt.le
      _ < 2 ^ 64 := by decide
  simp only [fine, UInt64.toNat_mul, UInt32.toNat_toUInt64, Nat.mod_eq_of_lt fits]

def rest (s : Span) (factor : UInt32) : UInt32 := (s.fine factor % 1000000000).toUInt32

theorem toNat_rest :
    (s.rest factor).toNat = s.nanos.toNat * factor.toNat % 1000000000 := by
  have unit : (1000000000 : UInt64).toNat = 1000000000 := rfl
  have small : s.nanos.toNat * factor.toNat % 1000000000 < 2 ^ 32 :=
    (Nat.mod_lt _ (by decide)).trans (by decide : 1000000000 < 2 ^ 32)
  rw [rest, UInt64.toNat_toUInt32, UInt64.toNat_mod, toNat_fine, unit, Nat.mod_eq_of_lt small]

theorem rest_below : (s.rest factor).toNat < 1000000000 :=
  toNat_rest ▸ Nat.mod_lt _ (by decide)

def whole (s : Span) (factor : UInt32) : Option UInt64 :=
  (Checked.mul s.seconds factor.toUInt64).bind fun seconds =>
    Checked.add seconds (s.fine factor / 1000000000)

theorem toNat_whole (s : Span) (factor : UInt32) : (s.whole factor).map UInt64.toNat =
    Checked.held
      (s.seconds.toNat * factor.toNat + s.nanos.toNat * factor.toNat / 1000000000) := by
  have product := Checked.toNat_mul (a := s.seconds) (b := factor.toUInt64)
  rw [UInt32.toNat_toUInt64] at product
  unfold whole
  cases multiplied : Checked.mul s.seconds factor.toUInt64 with
  | none =>
    rw [multiplied] at product
    have large := Checked.held_eq_none_iff.mp product.symm
    exact (Checked.held_eq_none_iff.mpr (large.trans (Nat.le_add_right ..))).symm
  | some seconds =>
    rw [multiplied] at product
    obtain ⟨-, multiple⟩ := Checked.held_eq_some_iff.mp product.symm
    have unit : (1000000000 : UInt64).toNat = 1000000000 := rfl
    rw [Option.bind_some, Checked.toNat_add, UInt64.toNat_div, toNat_fine, unit, ← multiple]

def scale (s : Span) (factor : UInt32) : Span :=
  match s.whole factor with
  | none => largest
  | some seconds => ⟨seconds, s.rest factor, rest_below⟩

def atMost (s cap : Span) : Span :=
  if cap.seconds < s.seconds ∨ cap.seconds = s.seconds ∧ cap.nanos < s.nanos then cap else s

theorem nanos_duration (s : Span) :
    s.duration.nanos = s.seconds.toNat * 1000000000 + s.nanos.toNat := rfl

theorem nanos_largest : Duration.largest.nanos = 2 ^ 64 * 1000000000 - 1 := by decide

theorem duration_largest : largest.duration = Duration.largest := rfl

theorem duration_le_largest (s : Span) : s.duration.nanos ≤ Duration.largest.nanos := by
  have seconds := s.seconds.toNat_lt
  have below := s.below
  rw [nanos_duration, nanos_largest]
  omega

/-- A multiple of the nanoseconds, with whole seconds carried. -/
theorem scaled_nanos (seconds nanos factor : Nat) :
    (seconds * 1000000000 + nanos) * factor =
      (seconds * factor + nanos * factor / 1000000000) * 1000000000 +
        nanos * factor % 1000000000 := by
  calc (seconds * 1000000000 + nanos) * factor
      = seconds * factor * 1000000000 + nanos * factor := by ring
    _ = seconds * factor * 1000000000 +
          (nanos * factor / 1000000000 * 1000000000 + nanos * factor % 1000000000) := by
        rw [Nat.div_add_mod']
    _ = _ := by ring

/-- Multiplying in words is multiplying, up to the largest duration. -/
theorem duration_scale : (s.scale factor).duration = s.duration.scale factor.toNat := by
  have counted := toNat_whole s factor
  have carried : s.duration.nanos * factor.toNat = _ :=
    scaled_nanos s.seconds.toNat s.nanos.toNat factor.toNat
  unfold scale Duration.scale
  cases fits : s.whole factor with
  | none =>
    rw [fits] at counted
    have large : 2 ^ 64 ≤ _ := Checked.held_eq_none_iff.mp counted.symm
    have beyond : Duration.largest.nanos ≤ s.duration.nanos * factor.toNat := by
      rw [carried, nanos_largest]
      omega
    rw [Nat.min_eq_right beyond]
    exact duration_largest
  | some seconds =>
    rw [fits] at counted
    obtain ⟨-, whole⟩ := Checked.held_eq_some_iff.mp counted.symm
    let product : Span := ⟨seconds, s.rest factor, rest_below⟩
    have multiple : product.duration.nanos = s.duration.nanos * factor.toNat := by
      rw [carried, nanos_duration, toNat_rest, whole]
    rw [Nat.min_eq_left (multiple ▸ duration_le_largest product), ← multiple]

theorem duration_atMost : (s.atMost t).duration = s.duration.atMost t.duration := by
  have sBelow := s.below
  have tBelow := t.below
  have shorter : (t.seconds < s.seconds ∨ t.seconds = s.seconds ∧ t.nanos < s.nanos) ↔
      t.duration.nanos < s.duration.nanos := by
    rw [UInt64.lt_iff_toNat_lt, ← UInt64.toNat_inj, UInt32.lt_iff_toNat_lt, nanos_duration,
      nanos_duration]
    omega
  simp only [atMost, shorter, Duration.atMost]
  split
  · next less => rw [Nat.min_eq_right less.le]
  · next more => rw [Nat.min_eq_left (Nat.le_of_not_lt more)]

end Span

/-! ### Growth -/

namespace Backoff

variable {b : Backoff} {m n : Nat} {retry : UInt32} {base cap : Span}

theorem factor_of_le (fits : n ≤ 32) : factor n = 2 ^ (n - 1) := by
  have shifted : n - 1 < 32 := by omega
  simp [factor, shifted, Nat.one_shiftLeft]

theorem factor_of_lt (beyond : 32 < n) : factor n = 2 ^ 32 - 1 := by
  have shifted : ¬n - 1 < 32 := by omega
  simp [factor, shifted]

/-- The largest word of 32 bits is above the last power of two that fits. -/
theorem factor_mono (later : m ≤ n) : factor m ≤ factor n := by
  rcases Nat.lt_or_ge 32 n with beyond | fits
  · rw [factor_of_lt beyond]
    rcases Nat.lt_or_ge 32 m with beyond' | fits'
    · rw [factor_of_lt beyond']
    · rw [factor_of_le fits']
      calc 2 ^ (m - 1) ≤ 2 ^ 31 := Nat.pow_le_pow_right (by decide) (by omega)
        _ ≤ 2 ^ 32 - 1 := by decide
  · rw [factor_of_le fits, factor_of_le (later.trans fits)]
    exact Nat.pow_le_pow_right (by decide) (by omega)

def growth (retry : UInt32) : UInt32 :=
  (Checked.shift 1 (Checked.pred retry)).getD 4294967295

theorem toNat_growth : (growth retry).toNat = factor retry.toNat := by
  have shifted := Checked.toNat_shift_one (Checked.pred retry)
  rw [Checked.toNat_pred] at shifted
  unfold growth
  rcases Nat.lt_or_ge (retry.toNat - 1) 32 with small | large
  · rw [if_pos small] at shifted
    obtain ⟨power, isShift, isPower⟩ := Option.map_eq_some_iff.mp shifted
    rw [isShift, Option.getD_some, isPower, factor_of_le (by omega)]
  · rw [if_neg (Nat.not_lt_of_ge large)] at shifted
    rw [Option.map_eq_none_iff.mp shifted, factor_of_lt (by omega)]
    rfl

/-! ### Delays -/

def delayInWords (base cap : Span) (retry : UInt32) : Span :=
  (base.scale (growth retry)).atMost cap

theorem duration_delayInWords (ofBase : base.duration = b.base) (ofCap : cap.duration = b.cap) :
    (delayInWords base cap retry).duration = b.delay retry.toNat := by
  rw [delayInWords, Span.duration_atMost, Span.duration_scale, toNat_growth, ofBase, ofCap]
  rfl

/-- The limit of durations is not seen behind a cap. -/
theorem nanos_delay (held : b.cap.nanos ≤ Duration.largest.nanos) :
    (b.delay n).nanos = min b.cap.nanos (b.base.nanos * factor n) := by
  show min (min (b.base.nanos * factor n) Duration.largest.nanos) b.cap.nanos = _
  omega

theorem delay_le_cap : (b.delay n).nanos ≤ b.cap.nanos := Nat.min_le_right ..

theorem delay_mono (later : m ≤ n) : (b.delay m).nanos ≤ (b.delay n).nanos := by
  have grown : b.base.nanos * factor m ≤ b.base.nanos * factor n :=
    Nat.mul_le_mul_left _ (factor_mono later)
  show min (min (b.base.nanos * factor m) _) _ ≤ min (min (b.base.nanos * factor n) _) _
  omega

/-- Delays grow and never wrap. Of a base and a cap that are held in words, the delay before each of
the first 32 retries is the base, doubled for every retry before and saturated at the largest
duration, and no more than the cap; no delay is above the cap, none is below an earlier one, and
behind the 32nd retry none is below the delay that was reached there. The words that count them hold
the same delays. -/
theorem delays_exact {b : Backoff} {base cap : Span} (ofBase : base.duration = b.base)
    (ofCap : cap.duration = b.cap) :
    (∀ retry, 1 ≤ retry → retry ≤ 32 →
      (b.base.scale (factor retry)).nanos =
        min (b.base.nanos * 2 ^ (retry - 1)) Duration.largest.nanos ∧
      (b.delay retry).nanos = min b.cap.nanos (b.base.nanos * 2 ^ (retry - 1))) ∧
    (∀ retry, (b.delay retry).nanos ≤ b.cap.nanos) ∧
    (∀ retry later, retry ≤ later → (b.delay retry).nanos ≤ (b.delay later).nanos) ∧
    (∀ retry, 32 < retry → min b.cap.nanos (b.base.nanos * 2 ^ 31) ≤ (b.delay retry).nanos) ∧
    ∀ retry : UInt32, (delayInWords base cap retry).duration = b.delay retry.toNat := by
  have held : b.cap.nanos ≤ Duration.largest.nanos := ofCap ▸ Span.duration_le_largest cap
  refine ⟨fun retry _ fits => ⟨?_, ?_⟩, fun _ => delay_le_cap, fun _ _ => delay_mono,
    fun retry beyond => ?_, fun _ => duration_delayInWords ofBase ofCap⟩
  · rw [← factor_of_le fits]
    rfl
  · rw [nanos_delay held, factor_of_le fits]
  · have reached : factor 32 = 2 ^ 31 := factor_of_le le_rfl
    calc min b.cap.nanos (b.base.nanos * 2 ^ 31)
        = (b.delay 32).nanos := by rw [nanos_delay held, reached]
      _ ≤ (b.delay retry).nanos := delay_mono beyond.le

def patientBase : Span := ⟨1099511627776, 999999999, by decide⟩

def patient : Backoff := ⟨4, patientBase.duration, .largest⟩

theorem delays_exact_patient :
    patientBase.duration = patient.base ∧ Span.largest.duration = patient.cap ∧
    (1 ≤ 24 ∧ 24 ≤ 32 ∧
      (patient.delay 24).nanos = min patient.cap.nanos (patient.base.nanos * 2 ^ 23)) ∧
    (patient.delay 24 ≠ .largest ∧ patient.delay 25 = .largest) ∧
    (24 ≤ 25 ∧ (patient.delay 24).nanos ≤ (patient.delay 25).nanos) ∧
    (32 < 4294967295 ∧
      min patient.cap.nanos (patient.base.nanos * 2 ^ 31) ≤ (patient.delay 4294967295).nanos) ∧
    (delayInWords patientBase .largest 4294967295).duration = patient.delay 4294967295 := by
  obtain ⟨doubles, -, grows, beyond, words⟩ :=
    delays_exact (show patientBase.duration = patient.base from rfl)
      (show Span.largest.duration = patient.cap from rfl)
  exact ⟨rfl, rfl, ⟨by decide, by decide, (doubles 24 (by decide) (by decide)).2⟩,
    by decide +kernel, ⟨by decide, grows 24 25 (by decide)⟩,
    ⟨by decide, beyond 4294967295 (by decide)⟩, words 4294967295⟩

end Backoff
end MultiCluster
