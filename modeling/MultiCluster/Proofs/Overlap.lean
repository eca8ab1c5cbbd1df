import Mathlib.Data.Set.Card
import Mathlib.Order.Interval.Finset.Nat
import MultiCluster.Proofs.Settled

/-! Blocks as sets of addresses. An address of 32 bits belongs to a block if its leading bits, as
many as the prefix covers, are those of the network. Blocks that share an address are nested, and
comparing the two networks under the mask of the shorter prefix finds out. -/
namespace MultiCluster.Globalnet.Block

variable {a b : Block} {m n bits : Nat} {x y w : BitVec 32}

def AgreeOn (bits m n : Nat) : Prop := ∀ i < 32, 32 - bits ≤ i → m.testBit i = n.testBit i

def Carries (b : Block) (x : BitVec 32) : Prop := AgreeOn b.bits x.toNat b.address

def Covers (a b : Block) : Prop := ∀ x, b.Carries x → a.Carries x

/-! ### Words

Masks and sizes as machine words compute them, of 32 and of 64 bits. -/

def word (b : Block) : BitVec 32 := BitVec.ofNat 32 b.address

/-- A shift that overflows if the amount is not below the width. -/
def shift? {width : Nat} (x : BitVec width) (amount : Nat) : Option (BitVec width) :=
  if amount < width then some (x <<< amount) else none

def mask? (bits : Nat) : Option (BitVec 32) :=
  if bits = 0 then some 0 else shift? (BitVec.allOnes 32) (32 - bits)

def size? (bits : Nat) : Option (BitVec 64) := shift? 1#64 (32 - bits)

/-- Only the empty prefix would take a shift by the whole width, and it does without. -/
theorem exists_mask (bits : Nat) : ∃ w, mask? bits = some w := by
  unfold mask?
  by_cases empty : bits = 0
  · exact ⟨0, if_pos empty⟩
  · rw [if_neg empty, shift?, if_pos (by omega)]
    exact ⟨_, rfl⟩

theorem getLsbD_mask (made : mask? bits = some w) {i : Nat} :
    w.getLsbD i = (decide (i < 32) && decide (32 - bits ≤ i)) := by
  unfold mask? at made
  by_cases empty : bits = 0
  · rw [if_pos empty] at made
    obtain rfl := Option.some.inj made
    simp [empty]
  · rw [if_neg empty, shift?, if_pos (by omega)] at made
    obtain rfl := Option.some.inj made
    rw [BitVec.getLsbD_shiftLeft, BitVec.getLsbD_allOnes, Bool.eq_iff_iff]
    simp only [Bool.and_eq_true, Bool.not_eq_true', decide_eq_true_eq, decide_eq_false_iff_not]
    omega

theorem masked_eq_iff (made : mask? bits = some w) :
    x &&& w = y &&& w ↔ AgreeOn bits x.toNat y.toNat := by
  constructor
  · intro same i inside above
    have bit := congrArg (fun z => z.getLsbD i) same
    simp only [BitVec.getLsbD_and, getLsbD_mask made, inside, above, decide_true,
      Bool.and_true] at bit
    exact bit
  · intro agree
    apply BitVec.eq_of_getLsbD_eq
    intro i inside
    rw [BitVec.getLsbD_and, BitVec.getLsbD_and, getLsbD_mask made]
    by_cases above : 32 - bits ≤ i
    · rw [show x.getLsbD i = y.getLsbD i from agree i inside above]
    · simp [above]

/-- The size of every block fits the wider word. -/
theorem exists_size : ∃ size, size? b.bits = some size ∧ size.toNat = b.size := by
  have bound : b.size ≤ 2 ^ 32 := size_le
  refine ⟨1#64 <<< (32 - b.bits), if_pos (by omega), ?_⟩
  rw [BitVec.toNat_shiftLeft, BitVec.toNat_one (by decide), Nat.one_shiftLeft, ← size_eq]
  apply Nat.mod_eq_of_lt
  omega

/-! ### Addresses -/

theorem testBit_of_ge (small : n < 2 ^ 32) {i : Nat} (beyond : 32 ≤ i) : n.testBit i = false := by
  apply Nat.testBit_lt_two_pow
  exact lt_of_lt_of_le small (Nat.pow_le_pow_right (by decide) beyond)

/-- Leading bits agree exactly if the numbers fall into the same stretch of addresses. -/
theorem agreeOn_iff_div (smallM : m < 2 ^ 32) (smallN : n < 2 ^ 32) :
    AgreeOn bits m n ↔ m / 2 ^ (32 - bits) = n / 2 ^ (32 - bits) := by
  rw [← Nat.shiftRight_eq_div_pow, ← Nat.shiftRight_eq_div_pow]
  constructor
  · intro agree
    apply Nat.eq_of_testBit_eq
    intro i
    rw [Nat.testBit_shiftRight, Nat.testBit_shiftRight]
    by_cases inside : 32 - bits + i < 32
    · exact agree _ inside (Nat.le_add_right _ _)
    · rw [testBit_of_ge smallM (by omega), testBit_of_ge smallN (by omega)]
  · intro same i _ covered
    have bit := congrArg (fun k => k.testBit (i - (32 - bits))) same
    simpa only [Nat.testBit_shiftRight, Nat.add_sub_cancel' covered] using bit

theorem carries_iff_has : b.Carries x ↔ b.Has x.toNat := by
  rw [Carries, agreeOn_iff_div x.isLt b.address_lt, has_iff, size_eq]

theorem toNat_word : b.word.toNat = b.address := Nat.mod_eq_of_lt b.address_lt

theorem carries_word_iff : a.Carries b.word ↔ a.Has b.address := by
  rw [carries_iff_has, toNat_word]

theorem carries_word : b.Carries b.word := carries_word_iff.mpr has_address

/-- The last address of a block fits a word. -/
theorem end_le : b.address + b.size ≤ 2 ^ 32 := by
  have whole : b.size ∣ 2 ^ 32 := by
    rw [size_eq]
    exact Nat.pow_dvd_pow 2 (Nat.sub_le _ _)
  obtain ⟨j, total⟩ := whole
  obtain ⟨k, address⟩ := b.size_dvd_address
  have before : k < j := by
    have inside : b.size * k < b.size * j := by
      rw [← total, ← address]
      exact b.address_lt
    exact Nat.lt_of_mul_lt_mul_left inside
  rw [total, address, ← Nat.mul_succ]
  exact Nat.mul_le_mul_left _ before

theorem exists_word_of_has (inside : b.Has n) : ∃ x : BitVec 32, x.toNat = n :=
  ⟨BitVec.ofNat 32 n, Nat.mod_eq_of_lt (lt_of_lt_of_le inside.2 end_le)⟩

/-- The addresses of a block follow each other. -/
theorem ncard_carries : {x | b.Carries x}.ncard = b.size := by
  have image : BitVec.toNat '' {x | b.Carries x} = Finset.Ico b.address (b.address + b.size) := by
    ext n
    rw [Set.mem_image, Finset.coe_Ico]
    constructor
    · rintro ⟨x, inside, rfl⟩
      exact carries_iff_has.mp inside
    · intro inside
      obtain ⟨x, rfl⟩ := exists_word_of_has inside
      exact ⟨x, carries_iff_has.mpr inside, rfl⟩
  rw [← Set.ncard_image_of_injective _ fun x y => BitVec.eq_of_toNat_eq, image, Set.ncard_coe_finset,
    Nat.card_Ico, Nat.add_sub_cancel_left]

/-! ### Overlap -/

theorem covers_of_shared (larger : a.bits ≤ b.bits) (inA : a.Carries x) (inB : b.Carries x) :
    a.Covers b := by
  intro y inside
  rw [carries_iff_has] at inA inB inside ⊢
  exact has_of_shared larger inA inB inside

theorem shared_iff_nested : (∃ x, a.Carries x ∧ b.Carries x) ↔ a.Covers b ∨ b.Covers a := by
  constructor
  · rintro ⟨x, inA, inB⟩
    rcases Nat.le_total a.bits b.bits with larger | larger
    · exact .inl (covers_of_shared larger inA inB)
    · exact .inr (covers_of_shared larger inB inA)
  · rintro (inside | inside)
    · exact ⟨b.word, inside _ carries_word, carries_word⟩
    · exact ⟨a.word, carries_word, inside _ carries_word⟩

theorem overlaps_iff_shared : a.overlaps b = true ↔ ∃ x, a.Carries x ∧ b.Carries x := by
  rw [overlaps_iff]
  constructor
  · rintro ⟨n, inA, inB⟩
    obtain ⟨x, rfl⟩ := exists_word_of_has inA
    exact ⟨x, carries_iff_has.mpr inA, carries_iff_has.mpr inB⟩
  · rintro ⟨x, inA, inB⟩
    exact ⟨x.toNat, carries_iff_has.mp inA, carries_iff_has.mp inB⟩

/-- Under the shorter prefix the networks are the same exactly if the larger block has the network
address of the other one. -/
theorem masked_iff_shared (larger : a.bits ≤ b.bits) (made : mask? a.bits = some w) :
    b.word &&& w = a.word &&& w ↔ ∃ x, a.Carries x ∧ b.Carries x := by
  rw [masked_eq_iff made, toNat_word (b := a)]
  constructor
  · intro same
    exact ⟨b.word, same, carries_word⟩
  · rintro ⟨x, inA, inB⟩
    exact covers_of_shared larger inA inB _ carries_word

theorem overlaps_iff_masked (made : mask? (min a.bits b.bits) = some w) :
    a.overlaps b = true ↔ a.word &&& w = b.word &&& w := by
  rw [overlaps_iff_shared]
  rcases Nat.le_total a.bits b.bits with larger | larger
  · rw [Nat.min_eq_left larger] at made
    rw [eq_comm, masked_iff_shared larger made]
  · rw [Nat.min_eq_right larger] at made
    rw [masked_iff_shared larger made]
    exact exists_congr fun x => and_comm

/-- Blocks overlap exactly if they share an address, and then one has all addresses of the other; it
does not matter which of them is asked. A block has as many addresses as its prefix leaves room for.
In words no shift overflows, neither for the size nor for the mask under which the comparison of the
networks gives the same answer. -/
theorem overlaps_exact (a b : Block) :
    (a.overlaps b = true ↔ ∃ x, a.Carries x ∧ b.Carries x) ∧
    (a.overlaps b = true ↔ a.Covers b ∨ b.Covers a) ∧
    a.overlaps b = b.overlaps a ∧
    {x | b.Carries x}.ncard = b.size ∧
    b.size = 2 ^ (32 - b.bits) ∧
    (∃ size, size? b.bits = some size ∧ size.toNat = b.size) ∧
    ∃ mask, mask? (min a.bits b.bits) = some mask ∧
      (a.overlaps b = true ↔ a.word &&& mask = b.word &&& mask) := by
  refine ⟨overlaps_iff_shared, overlaps_iff_shared.trans shared_iff_nested, overlaps_comm,
    ncard_carries, size_eq, exists_size, ?_⟩
  obtain ⟨mask, made⟩ := exists_mask (min a.bits b.bits)
  exact ⟨mask, made, overlaps_iff_masked made⟩

end MultiCluster.Globalnet.Block
