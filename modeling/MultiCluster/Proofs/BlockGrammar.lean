import MultiCluster.Proofs.Settled

/-! The texts that are read as blocks. White space around a text aside, four octets with dots between
them, a slash and the length of a prefix are read, and of the texts of this shape those stand for a
block whose address has no bit set behind the prefix. -/
namespace MultiCluster.Globalnet.Block

open Text (Digits)

variable {n address bits : Nat} {cs : List Char} {s : String} {b : Block}

structure Octet (cs : List Char) (n : Nat) : Prop extends Digits cs n where
  short : cs.length ≤ 3
  noLeadingZero : ∀ rest, cs = '0' :: rest → rest = []
  small : n ≤ 255

inductive Dotted : List Char → Nat → Prop
  | octets {p q r t : List Char} {i j k l : Nat} (first : Octet p i) (second : Octet q j)
    (third : Octet r k) (fourth : Octet t l) :
    Dotted (p ++ '.' :: (q ++ '.' :: (r ++ '.' :: t)))
      (i * 2 ^ 24 + j * 2 ^ 16 + k * 2 ^ 8 + l)

inductive Length : List Char → Nat → Prop
  | unsigned {cs : List Char} {n : Nat} (run : Digits cs n) (small : n ≤ 32) : Length cs n
  | signed {cs : List Char} {n : Nat} (run : Digits cs n) (small : n ≤ 32) : Length ('+' :: cs) n

/-- An address, a slash and the length of a prefix, with white space around them. -/
inductive Spells (s : String) (address bits : Nat) : Prop
  | intro {before octets digits after : List Char}
    (text : s.toList = before ++ (octets ++ '/' :: digits ++ after))
    (blankBefore : ∀ c ∈ before, Text.isBlank c = true)
    (blankAfter : ∀ c ∈ after, Text.isBlank c = true)
    (dotted : Dotted octets address) (length : Length digits bits)

def Aligned (bits address : Nat) : Prop := ∀ i < 32 - bits, address.testBit i = false

instance : Decidable (Aligned bits address) :=
  inferInstanceAs (Decidable (∀ i < 32 - bits, address.testBit i = false))

theorem octet?_eq_some_iff : octet? cs = some n ↔ Octet cs n := by
  unfold octet?
  split
  · next x rest =>
    constructor
    · intro read
      cases read
    · intro octet
      cases octet.noLeadingZero _ rfl
  · next plain =>
    split
    · next short =>
      rw [Option.filter_eq_some_iff, Text.digits?_eq_some_iff, decide_eq_true_eq]
      constructor
      · rintro ⟨run, small⟩
        refine ⟨run, short, fun rest same => ?_, small⟩
        cases rest with
        | nil => rfl
        | cons x rest => exact absurd same (plain x rest)
      · intro octet
        exact ⟨octet.toDigits, octet.small⟩
    · next long =>
      constructor
      · intro read
        cases read
      · intro octet
        exact absurd octet.short long

theorem bits?_eq_some_iff : bits? cs = some n ↔ Length cs n := by
  rw [bits?, Option.filter_eq_some_iff, Text.unsigned?_eq_some_iff, decide_eq_true_eq]
  constructor
  · rintro ⟨run | ⟨rest, rfl, run⟩, small⟩
    · exact .unsigned run small
    · exact .signed run small
  · rintro (⟨run, small⟩ | ⟨run, small⟩)
    · exact ⟨.inl run, small⟩
    · exact ⟨.inr ⟨_, rfl, run⟩, small⟩

theorem Octet.noDot (octet : Octet cs n) : '.' ∉ cs := fun member =>
  absurd (octet.digits '.' member) (by decide)

theorem address?_eq_some_iff : address? cs = some address ↔ Dotted cs address := by
  constructor
  · intro read
    unfold address? at read
    split at read
    · next i j k l cut =>
      obtain ⟨p, others, cut, first, cut'⟩ := List.map_eq_cons_iff.mp cut
      obtain ⟨q, others, rfl, second, cut'⟩ := List.map_eq_cons_iff.mp cut'
      obtain ⟨r, others, rfl, third, cut'⟩ := List.map_eq_cons_iff.mp cut'
      obtain ⟨t, others, rfl, fourth, cut'⟩ := List.map_eq_cons_iff.mp cut'
      obtain rfl := List.map_eq_nil_iff.mp cut'
      rw [octet?_eq_some_iff] at first second third fourth
      have value := Option.some.inj read
      have shape := Dotted.octets first second third fourth
      rw [Text.eq_of_pieces cut]
      simp only [List.flatMap_cons, List.flatMap_nil, List.append_nil, List.cons_append] at shape ⊢
      rw [← value]
      simpa only [Nat.shiftLeft_eq] using shape
    · cases read
  · rintro ⟨first, second, third, fourth⟩
    rw [address?, Text.pieces_append, Text.pieces_append, Text.pieces_append,
      Text.pieces_of_not_mem first.noDot, Text.pieces_of_not_mem second.noDot,
      Text.pieces_of_not_mem third.noDot, Text.pieces_of_not_mem fourth.noDot]
    rw [← octet?_eq_some_iff] at first second third fourth
    simp only [List.cons_append, List.nil_append, List.map_cons, List.map_nil, first, second, third,
      fourth, Nat.shiftLeft_eq]

theorem Dotted.chars (dotted : Dotted cs address) {c : Char} (member : c ∈ cs) :
    c.isDigit = true ∨ c = '.' := by
  cases dotted with
  | octets first second third fourth =>
    simp only [List.mem_append, List.mem_cons] at member
    rcases member with h | rfl | h | rfl | h | rfl | h
    · exact .inl (first.digits c h)
    · exact .inr rfl
    · exact .inl (second.digits c h)
    · exact .inr rfl
    · exact .inl (third.digits c h)
    · exact .inr rfl
    · exact .inl (fourth.digits c h)

theorem Length.chars (length : Length cs bits) {c : Char} (member : c ∈ cs) :
    c.isDigit = true ∨ c = '+' := by
  cases length with
  | unsigned run small => exact .inl (run.digits c member)
  | signed run small =>
    rcases List.mem_cons.mp member with rfl | later
    · exact .inr rfl
    · exact .inl (run.digits c later)

theorem spells_iff : Spells s address bits ↔ ∃ octets digits,
    Text.splitAtFirst '/' (Text.trimChars s.toList) = some (octets, digits) ∧
      address? octets = some address ∧ bits? digits = some bits := by
  simp only [address?_eq_some_iff, bits?_eq_some_iff]
  constructor
  · rintro ⟨text, blankBefore, blankAfter, dotted, length⟩
    next before octets digits after =>
    refine ⟨octets, digits, ?_, dotted, length⟩
    have noSlash : '/' ∉ octets := by
      intro member
      rcases dotted.chars member with digit | dot
      · exact absurd digit (by decide)
      · exact absurd dot (by decide)
    have visible : ∀ c ∈ octets ++ '/' :: digits, Text.isBlank c = false := by
      intro c member
      rcases List.mem_append.mp member with member | member
      · rcases dotted.chars member with digit | rfl
        · exact Text.isBlank_of_isDigit digit
        · decide
      · rcases List.mem_cons.mp member with rfl | member
        · decide
        · rcases length.chars member with digit | rfl
          · exact Text.isBlank_of_isDigit digit
          · decide
    rw [text, Text.trimChars_around visible blankBefore blankAfter,
      Text.splitAtFirst_append noSlash]
  · rintro ⟨octets, digits, split, dotted, length⟩
    obtain ⟨before, after, around, blankBefore, blankAfter⟩ := Text.exists_around s.toList
    rw [Text.eq_of_splitAtFirst split] at around
    exact ⟨around, blankBefore, blankAfter, dotted, length⟩

theorem parse_ok_iff_spells : Block.parse s = .ok b ↔ Spells s b.address b.bits := by
  rw [parse_ok_iff, spells_iff]

theorem aligned_iff : Aligned bits address ↔ address % 1 <<< (32 - bits) = 0 := by
  rw [Nat.one_shiftLeft]
  constructor
  · intro clear
    apply Nat.eq_of_testBit_eq
    intro i
    rw [Nat.testBit_mod_two_pow, Nat.zero_testBit]
    by_cases behind : i < 32 - bits
    · rw [clear i behind, Bool.and_false]
    · simp [behind]
  · intro clear i behind
    have bit := congrArg (fun k => k.testBit i) clear
    simpa [Nat.testBit_mod_two_pow, behind] using bit

theorem Octet.lt (octet : Octet cs n) : n < 2 ^ 8 := by
  have small : n ≤ 255 := octet.small
  omega

theorem Dotted.lt (dotted : Dotted cs address) : address < 2 ^ 32 := by
  cases dotted with
  | octets first second third fourth =>
    have first := first.lt
    have second := second.lt
    have third := third.lt
    have fourth := fourth.lt
    omega

theorem Length.le (length : Length cs bits) : bits ≤ 32 := by
  cases length with
  | unsigned run small => exact small
  | signed run small => exact small

def around (address bits : Nat) (le : bits ≤ 32) (lt : address < 1 <<< 32) : Block where
  address := network address bits
  bits := bits
  bits_le := le
  address_lt := lt_of_le_of_lt (Nat.div_mul_le_self _ _) lt
  aligned := Nat.mul_mod_left _ _

theorem around_has (le : bits ≤ 32) (lt : address < 1 <<< 32) :
    (around address bits le lt).Has address := by
  have positive : 0 < span bits := size_pos (b := around address bits le lt)
  rw [has_iff]
  change address / span bits = address / span bits * span bits / span bits
  rw [Nat.mul_div_cancel _ positive]

/-- An address with bits behind its prefix is refused, and the block around it is suggested. -/
theorem parse_of_not_aligned (spelled : Spells s address bits) (behind : ¬Aligned bits address) :
    ∃ c : Block, c.bits = bits ∧ c.Has address ∧
      Block.parse s = .error (.invalidConfiguration
        (Text.quoted s ++ (" has host bits set; did you mean " ++ c.text ++ "?"))) := by
  obtain ⟨octets, digits, split, read, read'⟩ := spells_iff.mp spelled
  have le : bits ≤ 32 := (bits?_eq_some_iff.mp read').le
  have lt : address < 1 <<< 32 := (address?_eq_some_iff.mp read).lt
  refine ⟨around address bits le lt, rfl, around_has le lt, ?_⟩
  simp only [parse, split, read, read']
  rw [dif_neg fun fine => behind (aligned_iff.mpr fine.2.2)]
  simp only [text, around, String.append_assoc]

/-- A text is read as a block exactly if it spells an address and a prefix behind which no bit of the
address is set, and they are those of the block. If some bit is set there, the block around the
address is suggested. A block is read from its own text. -/
theorem parse_exact (s : String) :
    (∀ address bits, (∃ b, Block.parse s = .ok b ∧ b.address = address ∧ b.bits = bits) ↔
      Spells s address bits ∧ Aligned bits address) ∧
    (∀ address bits, Spells s address bits → ¬Aligned bits address →
      ∃ c : Block, c.bits = bits ∧ c.Has address ∧ Block.parse c.text = .ok c ∧
        Block.parse s = .error (.invalidConfiguration
          (Text.quoted s ++ (" has host bits set; did you mean " ++ c.text ++ "?")))) ∧
    ∀ c : Block, Block.parse c.text = .ok c := by
  refine ⟨fun address bits => ⟨?_, ?_⟩, ?_, fun c => parse_text⟩
  · rintro ⟨b, parsed, rfl, rfl⟩
    exact ⟨parse_ok_iff_spells.mp parsed, aligned_iff.mpr b.aligned⟩
  · rintro ⟨spelled, aligned⟩
    obtain ⟨octets, digits, -, read, read'⟩ := spells_iff.mp spelled
    let b : Block := ⟨address, bits, (bits?_eq_some_iff.mp read').le,
      (address?_eq_some_iff.mp read).lt, aligned_iff.mp aligned⟩
    exact ⟨b, parse_ok_iff_spells.mpr spelled, rfl, rfl⟩
  · intro address bits spelled behind
    obtain ⟨c, length, inside, refused⟩ := parse_of_not_aligned spelled behind
    exact ⟨c, length, inside, parse_text, refused⟩

/-- White space, a plus sign and leading zeros are read past, but not bits behind the prefix. -/
theorem parse_padded :
    (∃ b, Block.parse " 10.1.0.0/+016\n" = .ok b ∧ b.address = 0x0A010000 ∧ b.bits = 16) ∧
    ∃ c : Block, c.bits = 16 ∧ c.Has 0x0A010203 ∧
      Block.parse "10.1.2.3/16" = .error (.invalidConfiguration
        (Text.quoted "10.1.2.3/16" ++ (" has host bits set; did you mean " ++ c.text ++ "?"))) := by
  have padded : Spells " 10.1.0.0/+016\n" 0x0A010000 16 :=
    spells_iff.mpr ⟨"10.1.0.0".toList, "+016".toList, by decide, by decide, by decide⟩
  have spelled : Spells "10.1.2.3/16" 0x0A010203 16 :=
    spells_iff.mpr ⟨"10.1.2.3".toList, "16".toList, by decide, by decide, by decide⟩
  have aligned : Aligned 16 0x0A010000 := by decide
  have behind : ¬Aligned 16 0x0A010203 := by decide
  obtain ⟨c, length, inside, -, refused⟩ := (parse_exact _).2.1 _ _ spelled behind
  exact ⟨((parse_exact _).1 _ _).mpr ⟨padded, aligned⟩, c, length, inside, refused⟩

end MultiCluster.Globalnet.Block
