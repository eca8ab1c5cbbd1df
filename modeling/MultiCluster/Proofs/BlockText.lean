import Mathlib.Data.List.TakeWhile
import MultiCluster.Globalnet.Record
import MultiCluster.Proofs.Numeral

/-! Blocks are read as they were written, and a range agrees with the text of a block exactly if it
is read as that block. -/
namespace MultiCluster

namespace Text

variable {c : Char} {a b cs before core after : List Char}

theorem splitAtFirst_append (free : c ∉ a) : splitAtFirst c (a ++ c :: b) = some (a, b) := by
  induction a with
  | nil => simp [splitAtFirst]
  | cons x rest ih =>
    obtain ⟨other, later⟩ : c ≠ x ∧ c ∉ rest := by simpa using free
    simp [splitAtFirst, Ne.symm other, ih later]

theorem splitAtFirst_eq_some_iff : splitAtFirst c cs = some (a, b) ↔ c ∉ a ∧ cs = a ++ c :: b := by
  constructor
  · intro split
    induction cs generalizing a with
    | nil => simp [splitAtFirst] at split
    | cons x rest ih =>
      rw [splitAtFirst] at split
      by_cases same : x = c
      · obtain ⟨rfl, rfl⟩ : [] = a ∧ rest = b := by simpa [same] using split
        exact ⟨List.not_mem_nil, by rw [same, List.nil_append]⟩
      · simp only [beq_iff_eq, same, if_false, Option.map_eq_some_iff, Prod.mk.injEq,
          Prod.exists] at split
        obtain ⟨a', b', later, rfl, rfl⟩ := split
        obtain ⟨free, whole⟩ := ih later
        rw [List.mem_cons, not_or, List.cons_append, ← whole]
        exact ⟨⟨Ne.symm same, free⟩, rfl⟩
  · rintro ⟨free, rfl⟩
    exact splitAtFirst_append free

theorem eq_of_splitAtFirst (split : splitAtFirst c cs = some (a, b)) : cs = a ++ c :: b :=
  (splitAtFirst_eq_some_iff.mp split).2

theorem trimChars_of_forall (visible : ∀ c ∈ cs, isBlank c = false) : trimChars cs = cs := by
  have keeps (l : List Char) (all : ∀ c ∈ l, isBlank c = false) : l.dropWhile isBlank = l := by
    cases l with
    | nil => rfl
    | cons x rest => simp [all x List.mem_cons_self]
  rw [trimChars, trimLeft, keeps cs visible, trimRight,
    keeps cs.reverse fun c member => visible c (List.mem_reverse.mp member), List.reverse_reverse]

theorem trimLeft_append (blank : ∀ c ∈ before, isBlank c = true) :
    trimLeft (before ++ cs) = trimLeft cs := List.dropWhile_append_of_pos blank

theorem trimRight_append (blank : ∀ c ∈ after, isBlank c = true) :
    trimRight (cs ++ after) = trimRight cs := by
  rw [trimRight, List.reverse_append, List.dropWhile_append_of_pos, trimRight]
  intro c member
  exact blank c (List.mem_reverse.mp member)

/-- White space around a text is what trimming takes away. -/
theorem trimChars_around (visible : ∀ c ∈ core, isBlank c = false)
    (blankBefore : ∀ c ∈ before, isBlank c = true) (blankAfter : ∀ c ∈ after, isBlank c = true) :
    trimChars (before ++ (core ++ after)) = core := by
  rw [trimChars, trimLeft_append blankBefore]
  cases core with
  | nil =>
    rw [List.nil_append, trimLeft, List.dropWhile_eq_nil_iff.mpr blankAfter]
    rfl
  | cons c rest =>
    have starts : trimLeft (c :: rest ++ after) = trimLeft (c :: rest) ++ after := by
      have first : isBlank c = false := visible c List.mem_cons_self
      simp [trimLeft, first]
    rw [starts, trimRight_append blankAfter]
    exact trimChars_of_forall visible

theorem exists_around (cs : List Char) : ∃ before after, cs = before ++ (trimChars cs ++ after) ∧
    (∀ c ∈ before, isBlank c = true) ∧ ∀ c ∈ after, isBlank c = true := by
  refine ⟨cs.takeWhile isBlank, ((trimLeft cs).reverse.takeWhile isBlank).reverse, ?_, ?_, ?_⟩
  · rw [trimChars, trimRight, ← List.reverse_append, List.takeWhile_append_dropWhile,
      List.reverse_reverse, trimLeft, List.takeWhile_append_dropWhile]
  · intro c member
    exact List.mem_takeWhile_imp member
  · intro c member
    exact List.mem_takeWhile_imp (List.mem_reverse.mp member)

theorem trimChars_eq_nil_iff {cs : List Char} :
    trimChars cs = [] ↔ ∀ c ∈ cs, isBlank c = true := by
  rw [trimChars, trimRight, List.reverse_eq_nil_iff, List.dropWhile_eq_nil_iff]
  constructor
  · intro blank c member
    rw [← List.takeWhile_append_dropWhile (p := isBlank) (l := cs), List.mem_append] at member
    rcases member with before | later
    · exact List.mem_takeWhile_imp before
    · exact blank c (List.mem_reverse.mpr later)
  · intro blank c member
    exact blank c ((List.dropWhile_suffix _).mem (List.mem_reverse.mp member))

theorem trim_eq_empty_iff {s : String} : trim s = "" ↔ blank s = true := by
  rw [blank, List.all_eq_true, ← trimChars_eq_nil_iff, trim]
  constructor
  · intro empty
    exact String.ofList_injective empty
  · intro empty
    rw [empty]

theorem isDigit_of_mem_decimal {n : Nat} (member : c ∈ (decimal n).toList) : c.isDigit = true := by
  rw [decimal, String.toList_ofList] at member
  exact Nat.isDigit_of_mem_toDigits (by decide) (by decide) member

theorem not_mem_decimal {n : Nat} (other : c.isDigit = false) : c ∉ (decimal n).toList :=
  fun member => by simp [isDigit_of_mem_decimal member] at other

theorem isBlank_of_isDigit (digit : c.isDigit = true) : isBlank c = false := by
  have bounds : 48 ≤ c.toNat ∧ c.toNat ≤ 57 := by
    simpa [Char.isDigit, Char.le_def, UInt32.le_iff_toNat_le] using digit
  simp only [isBlank, Bool.or_eq_false_iff, Bool.and_eq_false_iff, beq_eq_false_iff_ne,
    decide_eq_false_iff_not]
  omega

end Text

namespace Globalnet

namespace Block

variable {s t : String} {b : Block}

theorem octet?_decimal {n : Nat} (small : n < 256) : octet? (Text.decimal n).toList = some n := by
  have all : ∀ n : Fin 256, octet? (Nat.toDigits 10 n) = some n.val := by decide +kernel
  rw [Text.decimal, String.toList_ofList]
  exact all ⟨n, small⟩

theorem bits?_decimal {n : Nat} (small : n ≤ 32) : bits? (Text.decimal n).toList = some n := by
  simp [bits?, Text.unsigned?_decimal, Option.filter, small]

theorem toList_addressText {address : Nat} : (addressText address).toList =
    (Text.decimal (address >>> 24)).toList ++ '.' ::
      ((Text.decimal (address >>> 16 % 256)).toList ++ '.' ::
        ((Text.decimal (address >>> 8 % 256)).toList ++ '.' ::
          (Text.decimal (address % 256)).toList)) := by
  simp [addressText, Text.join]

theorem address?_addressText {address : Nat} (bound : address < 1 <<< 32) :
    address? (addressText address).toList = some address := by
  have noDot {n : Nat} : '.' ∉ (Text.decimal n).toList := Text.not_mem_decimal (by decide)
  have first : address >>> 24 < 256 := by omega
  have octets : (Text.pieces '.' (addressText address).toList).map octet? =
      [some (address >>> 24), some (address >>> 16 % 256), some (address >>> 8 % 256),
        some (address % 256)] := by
    rw [toList_addressText, Text.pieces_append, Text.pieces_append, Text.pieces_append]
    simp only [Text.pieces_of_not_mem noDot, List.cons_append, List.nil_append]
    simp only [List.map_cons, List.map_nil, octet?_decimal first,
      octet?_decimal (Nat.mod_lt _ (by decide : 0 < 256))]
  rw [address?, octets]
  simp only [Option.some.injEq]
  omega

theorem mem_addressText {address : Nat} {c : Char} (member : c ∈ (addressText address).toList) :
    c.isDigit = true ∨ c = '.' := by
  rw [toList_addressText] at member
  simp only [List.mem_append, List.mem_cons] at member
  rcases member with h | rfl | h | rfl | h | rfl | h
  · exact .inl (Text.isDigit_of_mem_decimal h)
  · exact .inr rfl
  · exact .inl (Text.isDigit_of_mem_decimal h)
  · exact .inr rfl
  · exact .inl (Text.isDigit_of_mem_decimal h)
  · exact .inr rfl
  · exact .inl (Text.isDigit_of_mem_decimal h)

theorem parse_ok_iff : Block.parse s = .ok b ↔ ∃ address bits,
    Text.splitAtFirst '/' (Text.trimChars s.toList) = some (address, bits) ∧
      address? address = some b.address ∧ bits? bits = some b.bits := by
  unfold parse
  cases Text.splitAtFirst '/' (Text.trimChars s.toList) with
  | none => simp
  | some parts =>
    obtain ⟨address, bits⟩ := parts
    cases read : address? address with
    | none => simp [read]
    | some n =>
      cases read' : bits? bits with
      | none => simp [read, read']
      | some m =>
        simp only [read, read', Option.some.injEq, Prod.mk.injEq]
        constructor
        · intro parsed
          split at parsed
          · obtain rfl := Except.ok.inj parsed
            exact ⟨_, _, ⟨rfl, rfl⟩, read, read'⟩
          · cases parsed
        · rintro ⟨_, _, ⟨rfl, rfl⟩, found, found'⟩
          obtain rfl := Option.some.inj (read.symm.trans found)
          obtain rfl := Option.some.inj (read'.symm.trans found')
          exact dif_pos ⟨b.bits_le, b.address_lt, b.aligned⟩

/-- A block is read as it was written. -/
theorem parse_text : Block.parse b.text = .ok b := by
  have chars : b.text.toList =
      (addressText b.address).toList ++ '/' :: (Text.decimal b.bits).toList := by
    simp [text]
  have visible : ∀ c ∈ b.text.toList, Text.isBlank c = false := by
    intro c member
    rw [chars] at member
    simp only [List.mem_append, List.mem_cons] at member
    rcases member with h | rfl | h
    · rcases mem_addressText h with digit | rfl
      · exact Text.isBlank_of_isDigit digit
      · decide
    · decide
    · exact Text.isBlank_of_isDigit (Text.isDigit_of_mem_decimal h)
  have noSlash : '/' ∉ (addressText b.address).toList := by
    intro member
    rcases mem_addressText member with digit | same
    · exact absurd digit (by decide)
    · exact absurd same (by decide)
  refine parse_ok_iff.mpr ⟨_, _, ?_, address?_addressText b.address_lt, bits?_decimal b.bits_le⟩
  rw [Text.trimChars_of_forall visible, chars, Text.splitAtFirst_append noSlash]

theorem parse_of_trim (same : Text.trim s = Text.trim t) (parsed : Block.parse s = .ok b) :
    Block.parse t = .ok b := by
  have chars : Text.trimChars s.toList = Text.trimChars t.toList := String.ofList_injective same
  rw [parse_ok_iff] at parsed ⊢
  rwa [← chars]

end Block

/-- A range agrees with the text of a block exactly if it is read as that block. -/
theorem sameRange_text {range : String} {b : Block} :
    sameRange range b.text = true ↔ Block.parse range = .ok b := by
  unfold sameRange
  rw [Block.parse_text]
  cases parsed : Block.parse range with
  | ok x => simp
  | error e =>
    simp only [beq_iff_eq, reduceCtorEq, iff_false]
    intro same
    rw [Block.parse_of_trim same.symm Block.parse_text] at parsed
    cases parsed

end Globalnet
end MultiCluster
