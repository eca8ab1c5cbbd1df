import Mathlib.Data.Nat.Basic
import MultiCluster.Text.Numeral

/-! Decimal numerals are read as the numbers they were written for, and nothing else is read than
digits and a plus sign before them. -/
namespace MultiCluster.Text

variable {m n : Nat} {cs : List Char}

theorem digit?_of_isDigit {c : Char} (digit : c.isDigit = true) :
    digit? c = some (c.toNat - 48) := by
  have bounds : '0' ≤ c ∧ c ≤ '9' := by simpa [Char.isDigit, Char.le_def] using digit
  simp [digit?, bounds]

theorem digitsFrom_of_isDigit {acc : Nat} (digits : ∀ c ∈ cs, c.isDigit = true) :
    digitsFrom acc cs = some (Nat.ofDigitChars 10 cs acc) := by
  induction cs generalizing acc with
  | nil => simp [digitsFrom]
  | cons c rest ih =>
    rw [List.forall_mem_cons] at digits
    rw [digitsFrom, digit?_of_isDigit digits.1, Option.bind_some, ih digits.2,
      Nat.ofDigitChars_cons]
    rfl

theorem digits?_toDigits : digits? (Nat.toDigits 10 n) = some n := by
  have digits : ∀ c ∈ Nat.toDigits 10 n, c.isDigit = true :=
    fun c => Nat.isDigit_of_mem_toDigits (by decide) (by decide)
  cases written : Nat.toDigits 10 n with
  | nil => exact absurd written Nat.toDigits_ne_nil
  | cons c rest =>
    rw [digits?, ← written, digitsFrom_of_isDigit digits, Nat.ofDigitChars_ten_toDigits]
    simp

theorem unsigned?_decimal : unsigned? (decimal n).toList = some n := by
  have digits : ∀ c ∈ Nat.toDigits 10 n, c.isDigit = true :=
    fun c => Nat.isDigit_of_mem_toDigits (by decide) (by decide)
  rw [decimal, String.toList_ofList]
  unfold unsigned?
  split
  · next rest written => exact absurd (digits '+' (by simp [written])) (by decide)
  · exact digits?_toDigits

/-- Numbers are told apart by their numerals. -/
theorem decimal_injective (same : decimal m = decimal n) : m = n := by
  have read := unsigned?_decimal (n := m)
  rw [same, unsigned?_decimal] at read
  exact (Option.some.inj read).symm

theorem decimal_ne_empty : decimal n ≠ "" := by
  intro empty
  have read := unsigned?_decimal (n := n)
  rw [empty] at read
  simp [unsigned?, digits?] at read

theorem word32?_decimal {n : UInt32} : word32? (decimal n.toNat) = some n := by
  have bound : n.toNat ≤ 0xFFFFFFFF := Nat.le_of_lt_succ n.toNat_lt
  simp [word32?, boundedUnsigned?, unsigned?_decimal, Option.filter, bound]

structure Digits (cs : List Char) (n : Nat) : Prop where
  nonempty : cs ≠ []
  digits : ∀ c ∈ cs, c.isDigit = true
  value : Nat.ofDigitChars 10 cs 0 = n

theorem isDigit_of_digit? {c : Char} {d : Nat} (read : digit? c = some d) : c.isDigit = true := by
  unfold digit? at read
  split at read
  · next bounds => simpa [Char.isDigit, Char.le_def] using bounds
  · cases read

theorem isDigit_of_digitsFrom {acc : Nat} (read : digitsFrom acc cs = some n) : ∀ c ∈ cs, c.isDigit = true := by
  induction cs generalizing acc with
  | nil => simp
  | cons c rest ih =>
    rw [digitsFrom, Option.bind_eq_some_iff] at read
    obtain ⟨d, first, later⟩ := read
    rw [List.forall_mem_cons]
    exact ⟨isDigit_of_digit? first, ih later⟩

theorem digits?_eq_some_iff : digits? cs = some n ↔ Digits cs n := by
  cases cs with
  | nil =>
    constructor
    · intro read
      cases read
    · intro run
      exact absurd rfl run.nonempty
  | cons c rest =>
    rw [digits?.eq_2 _ (List.cons_ne_nil c rest)]
    constructor
    · intro read
      have digits := isDigit_of_digitsFrom read
      rw [digitsFrom_of_isDigit digits] at read
      exact ⟨List.cons_ne_nil c rest, digits, Option.some.inj read⟩
    · intro run
      rw [digitsFrom_of_isDigit run.digits, run.value]

theorem unsigned?_eq_some_iff : unsigned? cs = some n ↔
    Digits cs n ∨ ∃ rest, cs = '+' :: rest ∧ Digits rest n := by
  unfold unsigned?
  split
  · next rest =>
    rw [digits?_eq_some_iff]
    constructor
    · intro run
      exact .inr ⟨rest, rfl, run⟩
    · rintro (run | ⟨_, same, run⟩)
      · exact absurd (run.digits '+' List.mem_cons_self) (by decide)
      · rwa [List.cons.inj same |>.2]
  · next unsigned =>
    rw [digits?_eq_some_iff]
    constructor
    · exact .inl
    · rintro (run | ⟨rest, same, -⟩)
      · exact run
      · exact absurd same (unsigned rest)

end MultiCluster.Text
