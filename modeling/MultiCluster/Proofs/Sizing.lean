import Mathlib.Order.Bounds.Basic
import MultiCluster.Proofs.Settled

/-! Which sizes the blocks of a range get. A size that is asked for is rounded up to a power of two,
and at least two blocks must fit; no size that is accepted is cut off by its type. -/
namespace MultiCluster.Globalnet

variable {block : Block} {range : String} {k m n p : Nat} {r r' size size' : UInt32}

def LeastPower (n p : Nat) : Prop := IsLeast {q | n ≤ q ∧ ∃ k, q = 2 ^ k} p

theorem LeastPower.mono (first : LeastPower m p) (second : LeastPower n k) (le : m ≤ n) : p ≤ k := by
  obtain ⟨above, power⟩ := second.1
  exact first.2 ⟨le.trans above, power⟩

theorem leastPower_powerOfTwoFrom : LeastPower n (powerOfTwoFrom n) := by
  unfold powerOfTwoFrom
  by_cases small : n ≤ 1
  · rw [if_pos small]
    refine ⟨⟨small, 0, rfl⟩, ?_⟩
    rintro _ ⟨-, k, rfl⟩
    exact Nat.one_le_two_pow
  · rw [if_neg small, Nat.one_shiftLeft]
    -- The logarithm of the number before puts `n` into the stretch above one power of two.
    obtain ⟨lower, upper⟩ := (Nat.log2_eq_iff (n := n - 1) (by omega)).mp rfl
    refine ⟨⟨by omega, _, rfl⟩, ?_⟩
    rintro _ ⟨above, k, rfl⟩
    have later : Nat.log2 (n - 1) < k := by
      apply (Nat.pow_lt_pow_iff_right (a := 2) (by decide)).mp
      omega
    exact Nat.pow_le_pow_right (by decide) later

/-- A size that cuts a block into blocks of its own, at least two of them. -/
structure Cuts (block : Block) (size : Nat) : Prop where
  power : ∃ k, size = 2 ^ k
  divides : size ∣ block.size
  room : 2 ≤ block.size / size

theorem cuts_of_power (half : 2 ^ k ≤ block.size / 2) : Cuts block (2 ^ k) := by
  have whole : 2 ^ k * 2 ≤ block.size := (Nat.le_div_iff_mul_le (by decide)).mp half
  constructor
  · exact ⟨k, rfl⟩
  · rw [Block.size_eq] at whole ⊢
    apply Nat.pow_dvd_pow 2
    apply (Nat.pow_le_pow_iff_right (a := 2) (by decide)).mp
    omega
  · rw [Nat.le_div_iff_mul_le (Nat.two_pow_pos k), Nat.mul_comm]
    exact whole

section Ranges

variable (parsed : Block.parse range = .ok block)
include parsed

theorem toNat_of_blockSize (accepted : blockSize range r = .ok size) :
    size.toNat = if r = 0 then defaultSize block.size else powerOfTwoFrom r.toNat := by
  obtain ⟨room, ⟨unsaid, rfl⟩ | ⟨asked, half, rfl⟩⟩ := (blockSize_ok_iff parsed).mp accepted
  · obtain ⟨k, power, half⟩ := defaultSize_isPower room
    have fits : defaultSize block.size ≤ block.size / 2 := by rwa [power]
    rw [if_pos unsaid]
    exact toNat_of_le_half fits
  · rw [if_neg asked]
    exact toNat_of_le_half half

theorem blockSize_error_iff : (∃ e, blockSize range r = .error e) ↔
    block.size = 1 ∨ r ≠ 0 ∧ block.size / 2 < powerOfTwoFrom r.toNat := by
  have positive : 0 < block.size := Block.size_pos
  constructor
  · rintro ⟨e, refused⟩
    by_contra allowed
    obtain ⟨some, fits⟩ := not_or.mp allowed
    have accepted : ∃ size, blockSize range r = .ok size := by
      by_cases unsaid : r = 0
      · exact ⟨_, (blockSize_ok_iff parsed).mpr ⟨by omega, .inl ⟨unsaid, rfl⟩⟩⟩
      · have half : powerOfTwoFrom r.toNat ≤ block.size / 2 :=
          Nat.le_of_not_lt fun large => fits ⟨unsaid, large⟩
        exact ⟨_, (blockSize_ok_iff parsed).mpr ⟨by omega, .inr ⟨unsaid, half, rfl⟩⟩⟩
    obtain ⟨size, accepted⟩ := accepted
    rw [refused] at accepted
    cases accepted
  · intro excluded
    cases verdict : blockSize range r with
    | error e => exact ⟨e, rfl⟩
    | ok size =>
      obtain ⟨room, chosen⟩ := (blockSize_ok_iff parsed).mp verdict
      rcases excluded with single | ⟨asked, large⟩
      · omega
      · rcases chosen with ⟨unsaid, -⟩ | ⟨-, half, -⟩
        · exact absurd unsaid asked
        · omega

/-- The default leaves sixteen blocks where the range has as many addresses. -/
theorem slots_of_default (accepted : blockSize range 0 = .ok size) (large : 16 ≤ block.size) :
    16 ≤ block.size / size.toNat := by
  obtain ⟨k, power, -⟩ := power_of_blockSize parsed accepted
  have value : size.toNat = defaultSize block.size := toNat_of_blockSize parsed accepted
  have positive : 0 < 2 ^ k := Nat.two_pow_pos k
  have small : size.toNat ≤ block.size / 16 := by
    rw [value, defaultSize, defaultSlots]
    omega
  rw [power] at small ⊢
  rw [Nat.le_div_iff_mul_le positive]
  omega

theorem blockSize_mono (asked : r ≠ 0) (le : r ≤ r') (first : blockSize range r = .ok size)
    (second : blockSize range r' = .ok size') : size ≤ size' := by
  have later : r' ≠ 0 := by
    rintro rfl
    exact asked (UInt32.le_antisymm le UInt32.zero_le)
  rw [UInt32.le_iff_toNat_le, toNat_of_blockSize parsed first, toNat_of_blockSize parsed second,
    if_neg asked, if_neg later]
  exact leastPower_powerOfTwoFrom.mono leastPower_powerOfTwoFrom (UInt32.le_iff_toNat_le.mp le)

end Ranges

/-- A range is refused exactly if it is a single address, or if two blocks do not fit of the least
power of two that is not below the size asked for. Otherwise the size is that power, or the default
if none was asked for, and it is not cut off. It divides the range into blocks, is accepted as it is
and does not fall when more is asked for. -/
theorem blockSize_exact (parsed : Block.parse range = .ok block) (r : UInt32) :
    ∃ p, LeastPower r.toNat p ∧
    (block.size ≤ 2 ^ 32 ∧ p ≤ 2 ^ 32) ∧
    ((∃ e, blockSize range r = .error e) ↔ block.size = 1 ∨ r ≠ 0 ∧ block.size / 2 < p) ∧
    ∀ size, blockSize range r = .ok size →
      size.toNat = (if r = 0 then min 65536 (max (block.size / 16) 1) else p) ∧
      Cuts block size.toNat ∧
      (r = 0 → 16 ≤ block.size → 16 ≤ block.size / size.toNat) ∧
      blockSize range size = .ok size ∧
      ∀ r' size', r ≠ 0 → r ≤ r' → blockSize range r' = .ok size' → size ≤ size' := by
  have small : powerOfTwoFrom r.toNat ≤ 2 ^ 32 :=
    leastPower_powerOfTwoFrom.2 ⟨Nat.le_of_lt r.toNat_lt, 32, rfl⟩
  refine ⟨_, leastPower_powerOfTwoFrom, ⟨Block.size_le, small⟩, blockSize_error_iff parsed,
    fun size accepted => ?_⟩
  obtain ⟨k, power, half⟩ := power_of_blockSize parsed accepted
  refine ⟨?_, ?_, ?_, blockSize_of_power parsed power half, ?_⟩
  · rw [Nat.min_comm]
    exact toNat_of_blockSize parsed accepted
  · rw [power]
    exact cuts_of_power half
  · rintro rfl large
    exact slots_of_default parsed accepted large
  · intro r' size' asked le later
    exact blockSize_mono parsed asked le accepted later

def wholeSpace : Block := ⟨0, 0, Nat.zero_le 32, Nat.two_pow_pos 32, Nat.zero_mod _⟩

/-- Half of all addresses can be asked for, and one address more cannot. -/
theorem blockSize_wholeSpace : Block.parse "0.0.0.0/0" = .ok wholeSpace ∧
    blockSize "0.0.0.0/0" 0x80000000 = .ok 0x80000000 ∧ Cuts wholeSpace 0x80000000 ∧
    ∃ e, blockSize "0.0.0.0/0" 0x80000001 = .error e := by
  have parsed : Block.parse "0.0.0.0/0" = .ok wholeSpace := by decide
  have accepted : blockSize "0.0.0.0/0" 0x80000000 = .ok 0x80000000 := by decide
  obtain ⟨_, -, -, -, sized⟩ := blockSize_exact parsed 0x80000000
  obtain ⟨p, least, -, refused, -⟩ := blockSize_exact parsed 0x80000001
  have large : 0x80000001 ≤ p := least.1.1
  refine ⟨parsed, accepted, (sized _ accepted).2.1, refused.mpr (.inr ⟨by decide, ?_⟩)⟩
  change 0x80000000 < p
  omega

end MultiCluster.Globalnet
