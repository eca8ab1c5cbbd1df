import MultiCluster.Proofs.JsonText
import MultiCluster.Proofs.Numeral
import MultiCluster.Proofs.Places

/-! Values that come back from their text. A value with ordered keys that nests no deeper than a
text may is read back as itself, given that its whole numbers fit 64 bits and that its doubles come
back. Whatever was read from a text is such a value, its doubles aside. -/
namespace MultiCluster.Json

def Returns (v : Json) : Prop := parse? v.compact = some v

/-- The doubles in a value are read back from their texts. -/
def FloatsReturn (v : Json) : Prop :=
  ∀ p x, v.below? p = some (.float x) → Returns (.float x)

namespace Numeral

variable {acc n : Nat} {cs : List Char} {negative : Bool}

def figure (c : Char) : Nat := c.toNat - 48

theorem splitDigits_digits (digits : ∀ c ∈ cs, c.isDigit = true) :
    splitDigits cs = (cs.map figure, []) := by
  induction cs with
  | nil => rfl
  | cons c rest ih =>
    rw [List.forall_mem_cons] at digits
    rw [splitDigits, Text.digit?_of_isDigit digits.1, ih digits.2]
    rfl

theorem figure_digitChar (positive : 0 < n) (small : n < 10) : figure n.digitChar ≠ 0 := by
  have every : ∀ k < 10, 0 < k → figure k.digitChar ≠ 0 := by decide
  exact every n small positive

theorem toDigits_leading (n : Nat) {c : Char} {rest : List Char} (positive : 0 < n)
    (digits : Nat.toDigits 10 n = c :: rest) : figure c ≠ 0 := by
  induction n using Nat.strongRecOn generalizing c rest with
  | ind n ih =>
    by_cases small : n < 10
    · rw [Nat.toDigits_of_lt_base small] at digits
      obtain ⟨rfl, -⟩ := List.cons.inj digits
      exact figure_digitChar positive small
    · rw [Nat.toDigits_of_base_le (by decide) (by omega)] at digits
      cases upper : Nat.toDigits 10 (n / 10) with
      | nil => exact absurd upper Nat.toDigits_ne_nil
      | cons d later =>
        rw [upper, List.cons_append] at digits
        obtain ⟨rfl, -⟩ := List.cons.inj digits
        exact ih (n / 10) (by omega) (by omega) upper

theorem isDigit_toDigits : ∀ c ∈ Nat.toDigits 10 n, c.isDigit = true :=
  fun _ => Nat.isDigit_of_mem_toDigits (by decide) (by decide)

/-- The digits of a number do not begin with a zero that more digits follow. -/
theorem unsigned?_toDigits : unsigned? negative (Nat.toDigits 10 n) =
    some ⟨negative, (Nat.toDigits 10 n).map figure, [], none⟩ := by
  have split := splitDigits_digits (isDigit_toDigits (n := n))
  cases written : Nat.toDigits 10 n with
  | nil => exact absurd written Nat.toDigits_ne_nil
  | cons c rest =>
    rw [written] at split
    rw [unsigned?, split]
    cases rest with
    | nil => simp [exponent?]
    | cons d later =>
      have positive : 0 < n := by
        by_contra zero
        obtain rfl : n = 0 := by omega
        cases written
      obtain ⟨k, leading⟩ := Nat.exists_eq_succ_of_ne_zero (toDigits_leading n positive written)
      simp [exponent?, leading]

theorem le_ofDigitChars : acc ≤ Nat.ofDigitChars 10 cs acc := by
  induction cs generalizing acc with
  | nil => simp
  | cons c rest ih =>
    rw [Nat.ofDigitChars_cons]
    exact (show acc ≤ 10 * acc + (c.toNat - '0'.toNat) by omega).trans ih

/-- Digits whose value fits a word are all gathered. -/
theorem gather_digits (fits : Nat.ofDigitChars 10 cs acc ≤ maxWord) :
    gather acc (cs.map figure) = (Nat.ofDigitChars 10 cs acc, []) := by
  induction cs generalizing acc with
  | nil => simp [gather]
  | cons c rest ih =>
    rw [Nat.ofDigitChars_cons] at fits
    have here : 10 * acc + figure c ≤ maxWord := le_ofDigitChars.trans fits
    rw [List.map_cons, gather, if_pos here, Nat.ofDigitChars_cons]
    exact ih fits

theorem value?_digits (fits : n ≤ maxWord) :
    (Numeral.mk negative ((Nat.toDigits 10 n).map figure) [] none).value? =
      if !negative then some (.int n)
      else if 0 < n && n ≤ 1 <<< 63 then some (.int (-n))
      else (Binary64.ofRatio false n 1).map (signed true) := by
  have whole : Nat.ofDigitChars 10 (Nat.toDigits 10 n) 0 = n := Nat.ofDigitChars_ten_toDigits
  have gathered : gather 0 ((Nat.toDigits 10 n).map figure) = (n, []) := by
    rw [gather_digits (by rwa [whole]), whole]
  simp [value?, gathered]

theorem gather_le {ds : List Nat} (fits : acc ≤ maxWord) : (gather acc ds).1 ≤ maxWord := by
  induction ds generalizing acc with
  | nil => exact fits
  | cons d rest ih =>
    rw [gather]
    split
    · next fitsNext => exact ih fitsNext
    · exact fits

theorem float_of_signed {x : Option Binary64} {v : Json} (read : x.map (signed negative) = some v) :
    ∃ y, v = .float y := by
  obtain ⟨y, -, rfl⟩ := Option.map_eq_some_iff.mp read
  exact ⟨_, rfl⟩

theorem float_of_float? {m : Numeral} {v : Json} (read : m.float? = some v) :
    ∃ x, v = .float x := by
  unfold float? at read
  simp only [] at read
  split at read
  · exact float_of_signed read
  · split at read
    · exact float_of_signed read
    · split at read
      · cases read
      · obtain rfl := Option.some.inj read
        exact ⟨_, rfl⟩

/-- A number that is read is a whole number of 64 bits or a double. -/
theorem value?_cases {m : Numeral} {v : Json} (read : m.value? = some v) :
    (∃ i : Int, v = .int i ∧ -9223372036854775808 ≤ i ∧ i < 18446744073709551616) ∨
      ∃ x, v = .float x := by
  have word : maxWord = 18446744073709551615 := by decide
  unfold value? at read
  split at read
  · split at read
    · next s gathered =>
      have fits : s ≤ maxWord := by
        have whole : (gather 0 m.whole).1 ≤ maxWord := gather_le (Nat.zero_le _)
        rwa [gathered] at whole
      split at read
      · obtain rfl := Option.some.inj read
        exact .inl ⟨s, rfl, by omega, by omega⟩
      · split at read
        · next bounds =>
          obtain rfl := Option.some.inj read
          simp only [Bool.and_eq_true, decide_eq_true_eq] at bounds
          exact .inl ⟨-s, rfl, by omega, by omega⟩
        · exact .inr (float_of_signed read)
    · exact .inr (float_of_float? read)
  · exact .inr (float_of_float? read)

end Numeral

section Numbers

open Document (Printed)

theorem isNumberChar_of_isDigit {c : Char} (digit : c.isDigit = true) : isNumberChar c = true := by
  simp [isNumberChar, digit]

/-- A whole number that fits 64 bits is read as itself. -/
theorem printed_int {i : Int} (least : -9223372036854775808 ≤ i) (most : i < 18446744073709551616) :
    ∃ n, Printed (.int i) (.number n) ∧ n.value? = some (.int i) := by
  have digits : ∀ c ∈ Nat.toDigits 10 i.natAbs, c.isDigit = true := Numeral.isDigit_toDigits
  have fits : i.natAbs ≤ Numeral.maxWord := by
    have word : Numeral.maxWord = 18446744073709551615 := by decide
    omega
  by_cases negative : i < 0
  · have text : (Json.int i).print = '-' :: Nat.toDigits 10 i.natAbs := by
      simp [print, printInt, negative]
    refine ⟨_, Document.printed_number text rfl
      (fun d member => isNumberChar_of_isDigit (digits d member)) Numeral.unsigned?_toDigits, ?_⟩
    have bounds : 0 < i.natAbs ∧ i.natAbs ≤ 1 <<< 63 := by omega
    rw [Numeral.value?_digits fits]
    simp only [Bool.not_true, Bool.false_eq_true, if_false, bounds.1, bounds.2, decide_true,
      Bool.and_self, if_true, Option.some.injEq, Json.int.injEq]
    omega
  · have text : (Json.int i).print = Nat.toDigits 10 i.natAbs := by
      simp [print, printInt, negative]
    cases written : Nat.toDigits 10 i.natAbs with
    | nil => exact absurd written Nat.toDigits_ne_nil
    | cons c rest =>
      rw [written, List.forall_mem_cons] at digits
      have numeral : Numeral.ofChars? (c :: rest) =
          some ⟨false, (Nat.toDigits 10 i.natAbs).map Numeral.figure, [], none⟩ := by
        have notMinus : c ≠ '-' := by
          rintro rfl
          exact absurd digits.1 (by decide)
        rw [Numeral.ofChars?.eq_2 _ (fun rest same => notMinus (List.cons.inj same).1), ← written]
        exact Numeral.unsigned?_toDigits
      refine ⟨_, Document.printed_number (text.trans written) (by simp [digits.1])
        (fun d member => isNumberChar_of_isDigit (digits.2 d member)) numeral, ?_⟩
      rw [Numeral.value?_digits fits]
      simp only [Bool.not_false, if_true, Option.some.injEq, Json.int.injEq]
      omega

theorem isNumberChar_zeros {n : Nat} : ∀ d ∈ Binary64.zeros n, isNumberChar d = true := by
  intro d member
  obtain rfl := List.eq_of_mem_replicate member
  decide

variable {c : Char} {digits : List Char} {p : Int}

theorem layout_numeric (each : ∀ d ∈ digits, d.isDigit = true) :
    ∀ d ∈ Binary64.layout digits p, isNumberChar d = true := by
  have chars : ∀ d ∈ digits, isNumberChar d = true :=
    fun d member => isNumberChar_of_isDigit (each d member)
  have point : isNumberChar '.' = true := by decide
  have zero : isNumberChar '0' = true := by decide
  unfold Binary64.layout
  simp only []
  split
  · split
    · split
      · rw [List.forall_mem_append, List.forall_mem_append]
        exact ⟨⟨chars, isNumberChar_zeros⟩, by simp [point, zero]⟩
      · rw [List.forall_mem_append, List.forall_mem_cons]
        exact ⟨fun d member => chars d (List.mem_of_mem_take member), point,
          fun d member => chars d (List.mem_of_mem_drop member)⟩
    · rw [List.forall_mem_append, List.forall_mem_append]
      exact ⟨⟨by simp [point, zero], isNumberChar_zeros⟩, chars⟩
  · have sign : isNumberChar (if p < 0 then '-' else '+') = true := by split <;> decide
    have power : ∀ d ∈ Nat.toDigits 10 p.natAbs, isNumberChar d = true :=
      fun d member => isNumberChar_of_isDigit (Numeral.isDigit_toDigits d member)
    rw [List.forall_mem_append, List.forall_mem_cons, List.forall_mem_cons]
    refine ⟨?_, by decide, sign, power⟩
    split
    · simp
    · exact chars
    · rw [List.forall_mem_cons] at chars ⊢
      rw [List.forall_mem_cons]
      exact ⟨chars.1, point, chars.2⟩

/-- However the digits of a double are laid out, a digit comes first. -/
theorem layout_leading (present : digits ≠ []) (each : ∀ d ∈ digits, d.isDigit = true) :
    ∃ c later, Binary64.layout digits p = c :: later ∧ c.isDigit = true := by
  obtain ⟨c, rest, rfl⟩ := List.exists_cons_of_ne_nil present
  have digit : c.isDigit = true := each c List.mem_cons_self
  unfold Binary64.layout
  simp only []
  split
  · split
    · split
      · exact ⟨c, _, rfl, digit⟩
      · exact ⟨c, _, rfl, digit⟩
    · exact ⟨'0', _, rfl, by decide⟩
  · cases rest with
    | nil => exact ⟨c, _, rfl, digit⟩
    | cons d later => exact ⟨c, _, rfl, digit⟩

/-- The text of a double is one number. -/
theorem text_numeric (x : Binary64) : ∃ c later, x.text = c :: later ∧
    (c == '-' || c.isDigit) = true ∧ ∀ d ∈ later, isNumberChar d = true := by
  have body : ∃ c later, x.text = (if x.negative then ['-'] else []) ++ c :: later ∧
      c.isDigit = true ∧ ∀ d ∈ later, isNumberChar d = true := by
    simp only [Binary64.text]
    split
    · refine ⟨'0', ['.', '0'], rfl, by decide, ?_⟩
      rw [List.forall_mem_cons, List.forall_mem_singleton]
      exact ⟨by decide, by decide⟩
    · obtain ⟨c, later, laid, digit⟩ := layout_leading (p :=
        x.shortest.power + (Nat.toDigits 10 x.shortest.digits).length - 1)
        Nat.toDigits_ne_nil Numeral.isDigit_toDigits
      refine ⟨c, later, by rw [laid], digit, fun d member => ?_⟩
      exact layout_numeric Numeral.isDigit_toDigits d (laid ▸ List.mem_cons_of_mem c member)
  obtain ⟨c, later, text, digit, chars⟩ := body
  by_cases negative : x.negative = true
  · rw [if_pos negative] at text
    refine ⟨'-', c :: later, text, rfl, ?_⟩
    rw [List.forall_mem_cons]
    exact ⟨isNumberChar_of_isDigit digit, chars⟩
  · rw [if_neg negative] at text
    exact ⟨c, later, text, by simp [digit], chars⟩

/-- A double that is read back is read as a number. -/
theorem printed_float {x : Binary64} (returns : Returns (.float x)) :
    ∃ n, Printed (.float x) (.number n) ∧ n.value? = some (.float x) := by
  obtain ⟨c, later, text, begins, chars⟩ := text_numeric x
  have printed : (Json.float x).print = c :: later := by rw [print, text]
  have numeral : ∃ n, Numeral.ofChars? (c :: later) = some n := by
    by_contra other
    have unread : scan .idle (c :: later) = none := by
      have step : scanStep .idle c = some (.number [c], []) := scanIdle_number begins
      rw [scan_of_silent step, ← List.append_nil later, scan_number chars]
      have refused : Numeral.ofChars? (c :: later) = none :=
        Option.eq_none_iff_forall_ne_some.mpr fun n read => other ⟨n, read⟩
      simp [scan, ScanMode.finish, refused]
    simp [Returns, parse?, Document.parse?, Document.ofChars?, compact, printed, tokens?,
      unread] at returns
  obtain ⟨n, read⟩ := numeral
  have spelled : Printed (.float x) (.number n) :=
    Document.printed_number printed begins chars read
  refine ⟨n, spelled, ?_⟩
  rw [Returns, parse?, Document.parse?_compact spelled] at returns
  simpa [Document.depth, Document.value?] using returns

end Numbers

/-- A value with ordered keys and whole numbers of 64 bits that nests no deeper than so many
levels, and whose doubles are read back from their texts. -/
inductive Regular : Nat → Json → Prop
  | null {n : Nat} : Regular n .null
  | bool {n : Nat} {b : Bool} : Regular n (.bool b)
  | int {n : Nat} {i : Int} : -9223372036854775808 ≤ i → i < 18446744073709551616 →
      Regular n (.int i)
  | float {n : Nat} {x : Binary64} : Returns (.float x) → Regular n (.float x)
  | str {n : Nat} {s : String} : Regular n (.str s)
  | arr {n : Nat} {items : List Json} : (∀ v ∈ items, Regular n v) → Regular (n + 1) (.arr items)
  | obj {n : Nat} {fields : Fields} : Fields.Ascending fields → (∀ e ∈ fields, Regular n e.2) →
      Regular (n + 1) (.obj fields)

section Regular

open Document (Printed PrintedField)

variable {d : Document} {n : Nat} {v : Json} {vs : List Json} {fields : Fields} {text : String}

structure Stands (n : Nat) (v : Json) (d : Document) : Prop where
  printed : Printed v d
  value : d.value? = some v
  depth : d.depth ≤ n

theorem stands_items (each : ∀ v ∈ vs, ∃ d, Stands n v d) :
    ∃ ds, List.Forall₂ Printed vs ds ∧ Document.itemValues? ds = some vs ∧
      Document.itemsDepth ds ≤ n := by
  induction vs with
  | nil => exact ⟨[], .nil, rfl, Nat.zero_le n⟩
  | cons v rest ih =>
    rw [List.forall_mem_cons] at each
    obtain ⟨⟨d, here⟩, later⟩ := each
    obtain ⟨ds, printed, values, depth⟩ := ih later
    refine ⟨d :: ds, .cons here.printed printed, ?_, ?_⟩
    · simp [Document.itemValues?, here.value, values]
    · simp only [Document.itemsDepth]
      exact Nat.max_le.mpr ⟨here.depth, depth⟩

theorem stands_fields (each : ∀ e ∈ fields, ∃ d, Stands n e.2 d) :
    ∃ members, List.Forall₂ PrintedField fields members ∧
      Document.memberValues? members = some fields ∧ Document.membersDepth members ≤ n := by
  induction fields with
  | nil => exact ⟨[], .nil, rfl, Nat.zero_le n⟩
  | cons field rest ih =>
    obtain ⟨key, v⟩ := field
    rw [List.forall_mem_cons] at each
    obtain ⟨⟨d, here⟩, later⟩ := each
    obtain ⟨members, printed, values, depth⟩ := ih later
    refine ⟨(some key, d) :: members, .cons ⟨rfl, here.printed⟩ printed, ?_, ?_⟩
    · simp [Document.memberValues?, here.value, values]
    · simp only [Document.membersDepth]
      exact Nat.max_le.mpr ⟨here.depth, depth⟩

theorem Regular.stands (regular : Regular n v) : ∃ d, Stands n v d := by
  induction regular with
  | null => exact ⟨_, Document.printed_null, rfl, Nat.zero_le _⟩
  | bool => exact ⟨_, Document.printed_bool, rfl, Nat.zero_le _⟩
  | int least most =>
    obtain ⟨m, printed, value⟩ := printed_int least most
    exact ⟨_, printed, value, Nat.zero_le _⟩
  | float returns =>
    obtain ⟨m, printed, value⟩ := printed_float returns
    exact ⟨_, printed, value, Nat.zero_le _⟩
  | str => exact ⟨_, Document.printed_str, rfl, Nat.zero_le _⟩
  | arr _ ih =>
    obtain ⟨ds, printed, values, depth⟩ := stands_items ih
    refine ⟨_, Document.printed_arr printed, ?_, ?_⟩
    · simp [Document.value?, values]
    · simpa [Document.depth] using depth
  | obj ordered _ ih =>
    obtain ⟨members, printed, values, depth⟩ := stands_fields ih
    refine ⟨_, Document.printed_obj printed, ?_, ?_⟩
    · simp [Document.value?, values, Fields.ofList_of_ascending ordered]
    · simpa [Document.depth] using depth

theorem Regular.returns (regular : Regular Document.maxDepth v) : Returns v := by
  obtain ⟨d, stands⟩ := regular.stands
  rw [Returns, parse?, Document.parse?_compact stands.printed]
  simp [stands.depth, stands.value]

theorem FloatsReturn.item (floats : FloatsReturn (.arr vs)) (member : v ∈ vs) :
    FloatsReturn v := by
  obtain ⟨i, inside, rfl⟩ := List.getElem_of_mem member
  intro p x held
  refine floats (.item i :: p) x ?_
  rw [below?_cons]
  simpa [turn?, inside] using held

theorem FloatsReturn.field {e : String × Json} (floats : FloatsReturn (.obj fields))
    (once : (fields.map (·.1)).Nodup) (member : e ∈ fields) : FloatsReturn e.2 := by
  intro p x held
  refine floats (.key e.1 :: p) x ?_
  rw [below?_cons, turn?, get?_obj, Fields.find?_of_once once member]
  exact held

theorem floatsReturn_obj (each : ∀ e ∈ fields, FloatsReturn e.2) :
    FloatsReturn (.obj fields) := by
  intro p x held
  cases p with
  | nil => cases held
  | cons t rest =>
    cases t with
    | key k =>
      obtain ⟨u, found, below⟩ := Option.bind_eq_some_iff.mp held
      exact each _ (Fields.mem_of_find? found) rest x below
    | item i => cases held

theorem floatsReturn_leaf (leaf : ∀ t, v.turn? t = none)
    (own : ∀ x, v = .float x → Returns (.float x)) : FloatsReturn v := by
  intro p x held
  cases p with
  | nil => exact own x (Option.some.inj held)
  | cons t rest =>
    rw [below?_cons, leaf] at held
    cases held

mutual
theorem regular_of_value? : ∀ (d : Document) {v : Json} {n : Nat}, d.value? = some v →
    d.depth ≤ n → FloatsReturn v → Regular n v
  | .null, _, _, read, _, _ => by
    obtain rfl := Option.some.inj read
    exact .null
  | .bool b, _, _, read, _, _ => by
    obtain rfl := Option.some.inj read
    exact .bool
  | .number m, _, _, read, _, floats => by
    rcases Numeral.value?_cases read with ⟨i, rfl, least, most⟩ | ⟨x, rfl⟩
    · exact .int least most
    · exact .float (floats [] x rfl)
  | .string s, _, _, read, _, _ => by
    obtain ⟨text, -, rfl⟩ := Option.map_eq_some_iff.mp read
    exact .str
  | .array ds, _, n, read, depth, floats => by
    obtain ⟨vs, values, rfl⟩ := Option.map_eq_some_iff.mp read
    obtain ⟨k, rfl⟩ : ∃ k, n = k + 1 := ⟨n - 1, by simp only [Document.depth] at depth; omega⟩
    refine .arr fun v member => ?_
    exact regular_of_items ds values (Nat.le_of_succ_le_succ depth) v member (floats.item member)
  | .object members, _, n, read, depth, floats => by
    obtain ⟨fields, values, rfl⟩ := Option.map_eq_some_iff.mp read
    obtain ⟨k, rfl⟩ : ∃ k, n = k + 1 := ⟨n - 1, by simp only [Document.depth] at depth; omega⟩
    refine .obj Fields.ascending_ofList fun e member => ?_
    exact regular_of_members members values (Nat.le_of_succ_le_succ depth) e
      (Fields.mem_ofList member) (floats.field Fields.ascending_ofList.nodup member)
theorem regular_of_items : ∀ (ds : List Document) {vs : List Json} {n : Nat},
    Document.itemValues? ds = some vs → Document.itemsDepth ds ≤ n →
    ∀ v ∈ vs, FloatsReturn v → Regular n v
  | [], _, _, read, _ => by
    obtain rfl := Option.some.inj read
    simp
  | d :: rest, _, n, read, depth => by
    simp only [Document.itemValues?, Option.bind_eq_bind, Option.bind_eq_some_iff] at read
    obtain ⟨v, first, vs, later, whole⟩ := read
    obtain rfl := Option.some.inj whole
    obtain ⟨here, below⟩ := Nat.max_le.mp depth
    rw [List.forall_mem_cons]
    exact ⟨regular_of_value? d first here, regular_of_items rest later below⟩
/-- The members that are kept are among those that were read. -/
theorem regular_of_members : ∀ (members : List (Option String × Document)) {fields : Fields}
    {n : Nat}, Document.memberValues? members = some fields → Document.membersDepth members ≤ n →
    ∀ e ∈ fields, FloatsReturn e.2 → Regular n e.2
  | [], _, _, read, _ => by
    obtain rfl := Option.some.inj read
    simp
  | (key, d) :: rest, _, n, read, depth => by
    simp only [Document.memberValues?, Option.bind_eq_bind, Option.bind_eq_some_iff] at read
    obtain ⟨k, -, v, first, fields, later, whole⟩ := read
    obtain rfl := Option.some.inj whole
    obtain ⟨here, below⟩ := Nat.max_le.mp depth
    rw [List.forall_mem_cons]
    exact ⟨regular_of_value? d first here, regular_of_members rest later below⟩
end

/-- What is read from a text is read back from its own. -/
theorem regular_of_parse? (read : parse? text = some v) (floats : FloatsReturn v) :
    Regular Document.maxDepth v := by
  simp only [parse?, Option.bind_eq_bind, Option.bind_eq_some_iff] at read
  obtain ⟨d, -, read⟩ := read
  split at read
  · next depth => exact regular_of_value? d read depth floats
  · cases read

end Regular

end MultiCluster.Json
