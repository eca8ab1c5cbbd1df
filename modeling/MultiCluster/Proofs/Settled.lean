import MultiCluster.Proofs.BlockText
import MultiCluster.Proofs.Planning

/-! Settings that the validation of globalnet lets through. A range is accepted for the addresses in
it, whatever blocks they are reserved in, and what is accepted is accepted again as it was left. -/
namespace MultiCluster.Globalnet

namespace Block

variable {a b : Block} {m n : Nat}

def Has (b : Block) (n : Nat) : Prop := b.address ≤ n ∧ n < b.address + b.size

theorem size_eq : b.size = 2 ^ (32 - b.bits) := Nat.one_shiftLeft _

theorem size_le : b.size ≤ 2 ^ 32 := by
  rw [size_eq]
  exact Nat.pow_le_pow_right (by decide) (Nat.sub_le _ _)

theorem size_pos : 0 < b.size := size_eq ▸ Nat.two_pow_pos _

theorem size_dvd_address : b.size ∣ b.address := Nat.dvd_of_mod_eq_zero b.aligned

theorem size_dvd_size (larger : a.bits ≤ b.bits) : b.size ∣ a.size := by
  rw [size_eq, size_eq]
  exact Nat.pow_dvd_pow 2 (by omega)

theorem has_address : b.Has b.address := ⟨le_rfl, Nat.lt_add_of_pos_right size_pos⟩

theorem has_iff : b.Has n ↔ n / b.size = b.address / b.size := by
  obtain ⟨k, address⟩ := b.size_dvd_address
  rw [Has, address, Nat.mul_div_cancel_left k size_pos, Nat.div_eq_iff size_pos]
  rw [Nat.mul_comm b.size k]
  have positive : 0 < b.size := size_pos
  omega

/-- What the larger of two blocks shares with the other one, it has as a whole. -/
theorem has_of_shared (larger : a.bits ≤ b.bits) (inA : a.Has n) (inB : b.Has n) (other : b.Has m) :
    a.Has m := by
  obtain ⟨k, whole⟩ := size_dvd_size larger
  rw [has_iff] at inB other
  rw [has_iff, whole, ← Nat.div_div_eq_div_mul] at inA ⊢
  rw [other, ← inB, inA]

/-- The block with fewer bits holds all of another block or nothing of it. -/
theorem overlaps_iff_of_bits_le (larger : a.bits ≤ b.bits) :
    a.overlaps b = true ↔ ∃ n, a.Has n ∧ b.Has n := by
  have shared : a.overlaps b = true ↔ a.address / a.size = b.address / a.size := by
    simp [overlaps, size, Nat.min_eq_left larger]
  rw [shared]
  constructor
  · intro same
    exact ⟨b.address, has_iff.mpr same.symm, has_address⟩
  · rintro ⟨n, inA, inB⟩
    exact (has_iff.mp (has_of_shared larger inA inB has_address)).symm

theorem overlaps_comm : a.overlaps b = b.overlaps a := by
  rw [overlaps, overlaps, Nat.min_comm, Bool.beq_comm]

/-- Blocks overlap exactly if they share an address. -/
theorem overlaps_iff : a.overlaps b = true ↔ ∃ n, a.Has n ∧ b.Has n := by
  rcases Nat.le_total a.bits b.bits with larger | larger
  · exact overlaps_iff_of_bits_le larger
  · rw [overlaps_comm, overlaps_iff_of_bits_le larger]
    exact exists_congr fun n => and_comm

end Block

section Ranges

variable {n : Nat} {range : String}

/-- An address outside 0.0.0.0/8, 127.0.0.0/8, 169.254.0.0/16, 224.0.0.0/4 and
255.255.255.255/32. -/
structure Usable (n : Nat) : Prop where
  notThisNetwork : n / 2 ^ 24 ≠ 0
  notLoopback : n / 2 ^ 24 ≠ 127
  notLinkLocal : n / 2 ^ 16 ≠ 169 * 2 ^ 8 + 254
  notMulticast : n / 2 ^ 28 ≠ 14
  notBroadcast : n ≠ 2 ^ 32 - 1

theorem usable_iff : Usable n ↔ ∀ r ∈ reserved, ¬r.block.Has n := by
  simp only [reserved, List.forall_mem_cons, List.not_mem_nil, false_implies, implies_true,
    and_true, Block.Has, Block.size, Block.span, Nat.shiftLeft_eq]
  constructor
  · rintro ⟨_, _, _, _, _⟩
    omega
  · rintro ⟨_, _, _, _, _⟩
    constructor <;> omega

theorem checkRange_ok_iff : checkRange range = .ok () ↔
    ∃ block, Block.parse range = .ok block ∧ ∀ n, block.Has n → Usable n := by
  unfold checkRange
  cases Block.parse range with
  | error e => simp [bind, Except.bind]
  | ok block =>
    have apart : (reserved.find? fun r => block.overlaps r.block) = none ↔
        ∀ n, block.Has n → Usable n := by
      simp only [List.find?_eq_none, Block.overlaps_iff, usable_iff]
      grind
    simp only [bind, Except.bind, Except.ok.injEq, exists_eq_left', ← apart]
    split
    · next free => simp [free, pure, Except.pure]
    · next found => simp [found, throw, throwThe, MonadExceptOf.throw]

end Ranges

section Sizes

variable {block : Block} {k n : Nat} {range : String} {requested size : UInt32}

theorem powerOfTwoFrom_isPower : ∃ k, powerOfTwoFrom n = 2 ^ k := by
  unfold powerOfTwoFrom
  split
  · exact ⟨0, rfl⟩
  · exact ⟨_, Nat.one_shiftLeft _⟩

theorem powerOfTwoFrom_power : powerOfTwoFrom (2 ^ k) = 2 ^ k := by
  cases k with
  | zero => rfl
  | succ k =>
    have positive : 0 < 2 ^ k := Nat.two_pow_pos k
    have above : ¬2 ^ (k + 1) ≤ 1 := by omega
    have log : Nat.log2 (2 ^ (k + 1) - 1) = k := by
      rw [Nat.log2_eq_iff (by omega)]
      omega
    rw [powerOfTwoFrom, if_neg above, log, Nat.one_shiftLeft]

theorem half_of_power (room : 1 ≤ k) : 2 ^ k / 2 = 2 ^ (k - 1) :=
  Nat.pow_div room (by decide)

/-- The default is a power of two as well, and two blocks of that size fit. -/
theorem defaultSize_isPower (room : 2 ≤ block.size) :
    ∃ k, defaultSize block.size = 2 ^ k ∧ 2 ^ k ≤ block.size / 2 := by
  obtain ⟨m, total⟩ : ∃ m, block.size = 2 ^ m := ⟨_, Block.size_eq⟩
  have some : 1 ≤ m := by
    by_contra none
    obtain rfl : m = 0 := by omega
    omega
  rw [total, half_of_power some]
  by_cases slots : 4 ≤ m
  · have slot : 2 ^ m / defaultSlots = 2 ^ (m - 4) := Nat.pow_div slots (by decide)
    have positive : 1 ≤ 2 ^ (m - 4) := Nat.one_le_two_pow
    rw [defaultSize, slot, Nat.max_eq_left positive, show maxDefaultSize = 2 ^ 16 from rfl]
    rcases Nat.le_total (m - 4) 16 with small | large
    · refine ⟨m - 4, Nat.min_eq_left (Nat.pow_le_pow_right (by decide) small), ?_⟩
      exact Nat.pow_le_pow_right (by decide) (by omega)
    · refine ⟨16, Nat.min_eq_right (Nat.pow_le_pow_right (by decide) large), ?_⟩
      exact Nat.pow_le_pow_right (by decide) (by omega)
  · have below : 2 ^ m < defaultSlots := Nat.pow_lt_pow_right (n := 4) (by decide) (by omega)
    rw [defaultSize, Nat.div_eq_of_lt below]
    exact ⟨0, rfl, Nat.one_le_two_pow⟩

theorem blockSize_ok_iff (parsed : Block.parse range = .ok block) :
    blockSize range requested = .ok size ↔ 2 ≤ block.size ∧
      (requested = 0 ∧ size = UInt32.ofNat (defaultSize block.size) ∨
        requested ≠ 0 ∧ powerOfTwoFrom requested.toNat ≤ block.size / 2 ∧
          size = UInt32.ofNat (powerOfTwoFrom requested.toNat)) := by
  have room : block.size / 2 = 0 ↔ ¬2 ≤ block.size := by omega
  simp only [blockSize, parsed, bind, Except.bind, throw, throwThe, MonadExceptOf.throw, pure,
    Except.pure]
  by_cases tooSmall : block.size / 2 = 0
  · simp [tooSmall, room.mp tooSmall]
  · have fits : 2 ≤ block.size := by omega
    by_cases unsaid : requested = 0
    · simp [tooSmall, fits, unsaid, eq_comm]
    · by_cases large : block.size / 2 < powerOfTwoFrom requested.toNat
      · simp [tooSmall, unsaid, large]
      · simp [tooSmall, fits, unsaid, large, eq_comm, Nat.not_lt.mp large]

/-- Half a range fits a word, so a size that is accepted is not cut off. -/
theorem toNat_of_le_half (half : n ≤ block.size / 2) : (UInt32.ofNat n).toNat = n := by
  have bound : block.size ≤ 2 ^ 32 := Block.size_le
  exact UInt32.toNat_ofNat_of_lt' (by rw [UInt32.size]; omega)

/-- An accepted size is a power of two, and two blocks of that size fit. -/
theorem power_of_blockSize (parsed : Block.parse range = .ok block)
    (accepted : blockSize range requested = .ok size) :
    ∃ k, size.toNat = 2 ^ k ∧ 2 ^ k ≤ block.size / 2 := by
  obtain ⟨room, ⟨-, rfl⟩ | ⟨-, half, rfl⟩⟩ := (blockSize_ok_iff parsed).mp accepted
  · obtain ⟨k, power, half⟩ := defaultSize_isPower room
    rw [power]
    exact ⟨k, toNat_of_le_half half, half⟩
  · obtain ⟨k, power⟩ := powerOfTwoFrom_isPower (n := requested.toNat)
    rw [power] at half ⊢
    exact ⟨k, toNat_of_le_half half, half⟩

/-- Such a size is accepted as it is. -/
theorem blockSize_of_power (parsed : Block.parse range = .ok block) (power : size.toNat = 2 ^ k)
    (half : 2 ^ k ≤ block.size / 2) : blockSize range size = .ok size := by
  have positive : 0 < 2 ^ k := Nat.two_pow_pos k
  have asked : size ≠ 0 := by
    rintro rfl
    exact positive.ne power
  have kept : powerOfTwoFrom size.toNat = size.toNat := by rw [power, powerOfTwoFrom_power]
  rw [blockSize_ok_iff parsed]
  refine ⟨by omega, .inr ⟨asked, ?_, ?_⟩⟩
  · rwa [kept, power]
  · rw [kept, UInt32.ofNat_toNat]

end Sizes

section Specs

variable {spec : BrokerSpec} {block : Block} {size : UInt32}

/-- What makes settings acceptable, with the network and the size that they stand for. -/
structure Accepts (spec : BrokerSpec) (block : Block) (size : UInt32) : Prop where
  parsed : Block.parse spec.globalnetRange = .ok block
  usable : ∀ n, block.Has n → Usable n
  sized : blockSize spec.globalnetRange spec.clusterSize = .ok size

def settledAs (spec : BrokerSpec) (block : Block) (size : UInt32) : BrokerSpec :=
  { spec with globalnetRange := block.text, clusterSize := size }

theorem settle_of_accepts (on : spec.globalnetEnabled = true) (ok : Accepts spec block size) :
    settle spec = (.ok (), settledAs spec block size) :=
  (settle_ok_iff on).mpr ⟨size, block, ok.sized,
    checkRange_ok_iff.mpr ⟨block, ok.parsed, ok.usable⟩, ok.parsed, rfl⟩

theorem settle_ok_iff_accepts (on : spec.globalnetEnabled = true) :
    (settle spec).1 = .ok () ↔ ∃ block size, Accepts spec block size := by
  constructor
  · intro ok
    obtain ⟨size, block, sized, checked, parsed, -⟩ :=
      (settle_ok_iff on).mp (Prod.ext ok rfl : settle spec = (.ok (), (settle spec).2))
    obtain ⟨block', parsed', usable⟩ := checkRange_ok_iff.mp checked
    obtain rfl := Except.ok.inj (parsed.symm.trans parsed')
    exact ⟨block, size, parsed, usable, sized⟩
  · rintro ⟨block, size, accepts⟩
    exact congrArg Prod.fst (settle_of_accepts on accepts)

/-- Accepted settings stand for the same network and size as they are left. -/
theorem Accepts.settled (ok : Accepts spec block size) :
    Accepts (settledAs spec block size) block size where
  parsed := Block.parse_text
  usable := ok.usable
  sized := by
    obtain ⟨k, power, half⟩ := power_of_blockSize ok.parsed ok.sized
    exact blockSize_of_power Block.parse_text power half

/-- Settings are left alone while globalnet is off. Otherwise those are accepted that stand for a
network of usable addresses and a size that fits; they are left in their final form, in which they
are accepted again, and nothing else is refused than an invalid configuration. -/
theorem settle_verdict (spec : BrokerSpec) :
    (spec.globalnetEnabled = false → settle spec = (.ok (), spec)) ∧
    (spec.globalnetEnabled = true →
      ((settle spec).1 = .ok () ↔ ∃ block size, Accepts spec block size) ∧
      ∀ block size, Accepts spec block size →
        settle spec = (.ok (), { spec with globalnetRange := block.text, clusterSize := size }) ∧
        Block.parse block.text = .ok block) ∧
    ((settle spec).1 = .ok () → settle (settle spec).2 = (.ok (), (settle spec).2)) ∧
    ∀ e, (settle spec).1 = .error e → ∃ m, e = .invalidConfiguration m := by
  refine ⟨settle_disabled, fun on => ⟨settle_ok_iff_accepts on, fun block size ok =>
    ⟨settle_of_accepts on ok, Block.parse_text⟩⟩, fun ok => ?_, fun e refused => ?_⟩
  · cases on : spec.globalnetEnabled with
    | false => rw [settle_disabled on, settle_disabled on]
    | true =>
      obtain ⟨block, size, accepts⟩ := (settle_ok_iff_accepts on).mp ok
      rw [settle_of_accepts on accepts]
      exact settle_of_accepts on accepts.settled
  · exact invalid_of_settle (Prod.ext refused rfl : settle spec = (.error e, (settle spec).2))

/-- A range is written without the space around it, and a size is filled in. -/
theorem settle_padded : settle ⟨["connectivity"], true, " 242.0.0.0/8 ", 0⟩ =
    (.ok (), ⟨["connectivity"], true, "242.0.0.0/8", 65536⟩) := by
  have all := settle_verdict ⟨["connectivity"], true, " 242.0.0.0/8 ", 0⟩
  refine ((all.2.1 rfl).2 ⟨242 <<< 24, 8, by decide, by decide, by decide⟩ 65536 ⟨rfl, ?_, rfl⟩).1
  rintro n ⟨lower, upper⟩
  simp only [Block.size, Block.span, Nat.shiftLeft_eq] at lower upper
  constructor <;> omega

end Specs

end MultiCluster.Globalnet
