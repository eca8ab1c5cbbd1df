import MultiCluster.Proofs.Sizing

/-! What refused globalnet settings are left as. The size of the blocks is written as soon as it is
found, and only then is the range held against the reserved blocks; nothing else is written before
all checks are passed. -/
namespace MultiCluster.Globalnet

variable {block : Block} {range : String} {p : Nat} {r size : UInt32}

theorem checkRange_error_iff (parsed : Block.parse range = .ok block) :
    (∃ e, checkRange range = .error e) ↔ ∃ n, block.Has n ∧ ¬Usable n := by
  have accepted : checkRange range = .ok () ↔ ∀ n, block.Has n → Usable n := by
    rw [checkRange_ok_iff, parsed]
    simp
  cases verdict : checkRange range with
  | ok _ =>
    have usable := accepted.mp verdict
    simpa using usable
  | error e =>
    have reserved : ¬∀ n, block.Has n → Usable n := by
      intro usable
      rw [accepted.mpr usable] at verdict
      cases verdict
    simpa using reserved

theorem LeastPower.pos (least : LeastPower r.toNat p) : 0 < p := by
  obtain ⟨-, k, rfl⟩ := least.1
  exact Nat.two_pow_pos k

theorem LeastPower.eq_powerOfTwoFrom (least : LeastPower r.toNat p) : p = powerOfTwoFrom r.toNat :=
  least.unique leastPower_powerOfTwoFrom

/-- The size that is asked for is found if two blocks of it fit. -/
theorem blockSize_ok_iff_fits (parsed : Block.parse range = .ok block)
    (least : LeastPower r.toNat p) : (∃ size, blockSize range r = .ok size) ↔ p ≤ block.size / 2 := by
  have positive : 0 < p := least.pos
  have refused := blockSize_error_iff parsed (r := r)
  rw [← least.eq_powerOfTwoFrom] at refused
  cases verdict : blockSize range r with
  | ok size =>
    have fits : ¬(block.size = 1 ∨ r ≠ 0 ∧ block.size / 2 < p) := by
      rw [← refused, verdict]
      simp
    have room : 2 ≤ block.size := ((blockSize_ok_iff parsed).mp verdict).1
    have unsaid : r = 0 → p = 1 := by
      rintro rfl
      exact least.eq_powerOfTwoFrom
    simp only [Except.ok.injEq, exists_eq', true_iff]
    by_cases asked : r = 0
    · have one := unsaid asked
      omega
    · by_contra large
      exact fits (.inr ⟨asked, by omega⟩)
  | error e =>
    have tight : block.size = 1 ∨ r ≠ 0 ∧ block.size / 2 < p := refused.mp ⟨e, verdict⟩
    simp only [reduceCtorEq, exists_false, false_iff]
    omega

/-- A size that was found is another one than was asked for unless that is a power of two. -/
theorem ne_of_blockSize_iff (parsed : Block.parse range = .ok block) (least : LeastPower r.toNat p)
    (accepted : blockSize range r = .ok size) : size ≠ r ↔ p ≠ r.toNat := by
  have value : size.toNat = if r = 0 then defaultSize block.size else powerOfTwoFrom r.toNat :=
    toNat_of_blockSize parsed accepted
  rw [← UInt32.toNat_inj.ne]
  by_cases asked : r = 0
  · obtain ⟨k, power, -⟩ := power_of_blockSize parsed accepted
    have positive : 0 < 2 ^ k := Nat.two_pow_pos k
    have above : 0 < p := least.pos
    subst asked
    simp only [UInt32.toNat_zero]
    omega
  · rw [value, if_neg asked, ← least.eq_powerOfTwoFrom]

/-- Refused settings keep their components, their flag and their range. They keep their size too,
unless it is no power of two, would have fitted once it was made one, and the range was refused for
an address in it. The size is then what the range would have been cut into: the power of two, or the
default if none was asked for. -/
theorem left_by_refusal {spec : BrokerSpec} {e : Error} (refused : (settle spec).1 = .error e) :
    (settle spec).2.components = spec.components ∧
    (settle spec).2.globalnetEnabled = spec.globalnetEnabled ∧
    (settle spec).2.globalnetRange = spec.globalnetRange ∧
    ((settle spec).2.clusterSize ≠ spec.clusterSize ↔
      ∃ block p, Block.parse spec.globalnetRange = .ok block ∧ (∃ n, block.Has n ∧ ¬Usable n) ∧
        LeastPower spec.clusterSize.toNat p ∧ p ≤ block.size / 2 ∧ p ≠ spec.clusterSize.toNat) ∧
    ((settle spec).2.clusterSize ≠ spec.clusterSize →
      ∀ block p, Block.parse spec.globalnetRange = .ok block →
        LeastPower spec.clusterSize.toNat p → (settle spec).2.clusterSize.toNat =
          if spec.clusterSize = 0 then min 65536 (max (block.size / 16) 1) else p) := by
  have settled : settle spec = (.error e, (settle spec).2) := Prod.ext refused rfl
  obtain ⟨-, ⟨unsized, same⟩ | ⟨size, sized, barred, left⟩⟩ := settle_error_iff.mp settled
  · rw [same]
    refine ⟨rfl, rfl, rfl, ⟨fun other => absurd rfl other, ?_⟩, fun other => absurd rfl other⟩
    rintro ⟨block, p, parsed, -, least, fits, -⟩
    obtain ⟨size, sized⟩ := (blockSize_ok_iff_fits parsed least).mpr fits
    rw [unsized] at sized
    cases sized
  · obtain ⟨block, parsed⟩ := parse_of_blockSize sized
    have only {block' : Block} (parsed' : Block.parse spec.globalnetRange = .ok block') :
        block = block' := Except.ok.inj (parsed.symm.trans parsed')
    rw [left]
    refine ⟨rfl, rfl, rfl, ⟨fun other => ?_, ?_⟩, fun other block' p parsed' least => ?_⟩
    · have least := leastPower_powerOfTwoFrom (n := spec.clusterSize.toNat)
      exact ⟨block, _, parsed, (checkRange_error_iff parsed).mp ⟨e, barred⟩, least,
        (blockSize_ok_iff_fits parsed least).mp ⟨size, sized⟩,
        (ne_of_blockSize_iff parsed least sized).mp other⟩
    · rintro ⟨block', p, parsed', -, least, -, unlike⟩
      exact (ne_of_blockSize_iff parsed' least sized).mpr unlike
    · have value := toNat_of_blockSize parsed' sized
      rw [← least.eq_powerOfTwoFrom, defaultSize, Nat.min_comm] at value
      exact value

def loopbackSpec (size : UInt32) : BrokerSpec := ⟨["connectivity"], true, "127.0.0.0/8", size⟩

def loopbackRefusal : Error := .invalidConfiguration
  "127.0.0.0/8 can't be used as globalnet CIDR: overlaps the loopback range 127.0.0.0/8"

/-- Five addresses were asked for, and eight are left when the range is refused. -/
theorem left_by_refusal_five : (settle (loopbackSpec 5)).1 = .error loopbackRefusal ∧
    (settle (loopbackSpec 5)).2.clusterSize ≠ 5 ∧
    (settle (loopbackSpec 5)).2.clusterSize.toNat = 8 := by
  have refused : (settle (loopbackSpec 5)).1 = .error loopbackRefusal := by decide
  have parsed : Block.parse "127.0.0.0/8" =
      .ok ⟨127 <<< 24, 8, by decide, by decide, by decide⟩ := by decide
  have least : LeastPower (UInt32.toNat 5) 8 := leastPower_powerOfTwoFrom (n := 5)
  have reserved : ¬Usable (127 <<< 24) := fun usable => usable.notLoopback (by decide)
  obtain ⟨-, -, -, changed, left⟩ := left_by_refusal refused
  have other : (settle (loopbackSpec 5)).2.clusterSize ≠ 5 :=
    changed.mpr ⟨_, 8, parsed, ⟨_, Block.has_address, reserved⟩, least, by decide, by decide⟩
  exact ⟨refused, other, left other _ 8 parsed least⟩

/-- No size was asked for, and the default is left when the range is refused. -/
theorem default_left_behind :
    settle (loopbackSpec 0) = (.error loopbackRefusal, loopbackSpec 65536) ∧
    loopbackSpec 65536 ≠ loopbackSpec 0 := by
  decide

end MultiCluster.Globalnet
