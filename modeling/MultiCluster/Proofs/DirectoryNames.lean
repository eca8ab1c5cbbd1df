import Mathlib.Data.String.Basic
import MultiCluster.Gather.Options
import MultiCluster.Proofs.Succession
import MultiCluster.Proofs.Timestamps

/-! Directories that are named after the time. Numbers in fields of fixed widths, the largest unit
first, compare as texts the way they compare as numbers, so the names are ordered like the seconds
in which the runs began. -/
namespace MultiCluster

namespace Calendar

variable {cs ds : List Char} {m n width : Nat} {s t : Int} {widths ms ns : List Nat}

/-! ### Fields of digits -/

/-- The value of a digit is its distance from zero. -/
theorem exists_of_isDigit {c : Char} (digit : c.isDigit = true) :
    ∃ k, k ≤ 9 ∧ c.toNat = '0'.toNat + k := by
  have bounds : '0' ≤ c ∧ c ≤ '9' := by simpa [Char.isDigit, Char.le_def] using digit
  have first : '0'.toNat ≤ c.toNat := bounds.1
  have last : c.toNat ≤ '0'.toNat + 9 := bounds.2
  exact ⟨c.toNat - '0'.toNat, by omega, by omega⟩

theorem ofDigitChars_cons_of_isDigit {c : Char} {k : Nat} (value : c.toNat = '0'.toNat + k) :
    Nat.ofDigitChars 10 (c :: cs) 0 = 10 ^ cs.length * k + Nat.ofDigitChars 10 cs 0 := by
  rw [Nat.ofDigitChars_cons, Nat.ofDigitChars_eq_ofDigitChars_zero, value, Nat.add_sub_cancel_left,
    Nat.mul_zero, Nat.zero_add]

theorem ofDigitChars_lt (digits : ∀ c ∈ cs, c.isDigit = true) :
    Nat.ofDigitChars 10 cs 0 < 10 ^ cs.length := by
  induction cs with
  | nil => simp
  | cons c rest ih =>
    rw [List.forall_mem_cons] at digits
    obtain ⟨k, small, value⟩ := exists_of_isDigit digits.1
    have later := ih digits.2
    have first : 10 ^ rest.length * k ≤ 10 ^ rest.length * 9 := Nat.mul_le_mul_left _ small
    rw [ofDigitChars_cons_of_isDigit value, List.length_cons, Nat.pow_succ]
    omega

/-- Of two numerals of one length the one of the smaller number comes first. -/
theorem lt_of_ofDigitChars_lt (digits : ∀ c ∈ cs, c.isDigit = true)
    (digits' : ∀ d ∈ ds, d.isDigit = true) (same : cs.length = ds.length)
    (less : Nat.ofDigitChars 10 cs 0 < Nat.ofDigitChars 10 ds 0) : cs < ds := by
  induction cs generalizing ds with
  | nil =>
    obtain rfl := List.length_eq_zero_iff.mp same.symm
    exact absurd less (lt_irrefl _)
  | cons c rest ih =>
    obtain ⟨d, rest', rfl⟩ := List.exists_cons_of_length_eq_add_one same.symm
    rw [List.forall_mem_cons] at digits digits'
    obtain ⟨j, -, first⟩ := exists_of_isDigit digits.1
    obtain ⟨k, -, second⟩ := exists_of_isDigit digits'.1
    have length : rest.length = rest'.length := by simpa using same
    have below := ofDigitChars_lt digits'.2
    rw [ofDigitChars_cons_of_isDigit first, ofDigitChars_cons_of_isDigit second, length] at less
    rw [List.cons_lt_cons_iff]
    rcases Nat.lt_trichotomy j k with before | rfl | after
    · refine .inl (Char.lt_def.mpr ?_)
      show c.toNat < d.toNat
      omega
    · exact .inr ⟨Char.toNat_inj.mp (first.trans second.symm),
        ih digits.2 digits'.2 length (by omega)⟩
    · -- A larger first digit outweighs all that follow it.
      have outweighs : 10 ^ rest'.length * (k + 1) ≤ 10 ^ rest'.length * j :=
        Nat.mul_le_mul_left _ after
      rw [Nat.mul_add_one] at outweighs
      omega

theorem append_lt_append {as bs : List Char} (same : cs.length = ds.length) (less : cs < ds) :
    cs ++ as < ds ++ bs := by
  induction cs generalizing ds with
  | nil =>
    obtain rfl := List.length_eq_zero_iff.mp same.symm
    exact absurd less (lt_irrefl _)
  | cons c rest ih =>
    obtain ⟨d, rest', rfl⟩ := List.exists_cons_of_length_eq_add_one same.symm
    rw [List.cons_append, List.cons_append, List.cons_lt_cons_iff]
    rcases List.cons_lt_cons_iff.mp less with first | ⟨rfl, later⟩
    · exact .inl first
    · exact .inr ⟨rfl, ih (by simpa using same) later⟩

structure Fits (width n : Nat) : Prop where
  positive : 0 < width
  bound : n < 10 ^ width

theorem padded_lt_padded (fits : Fits width m) (fits' : Fits width n) (less : m < n) :
    padded width m < padded width n := by
  have value {k : Nat} : Nat.ofDigitChars 10 (padded width k) 0 = k :=
    (Text.digits?_eq_some_iff.mp digits?_padded).value
  refine lt_of_ofDigitChars_lt isDigit_padded isDigit_padded ?_ ?_
  · rw [length_padded fits.positive fits.bound, length_padded fits'.positive fits'.bound]
  · rwa [value, value]

def written (widths ns : List Nat) : List Char := (List.zipWith padded widths ns).flatten

/-- Fields compare one after the other, as the numbers in them do. -/
theorem written_lt_written (fits : List.Forall₂ Fits widths ms)
    (fits' : List.Forall₂ Fits widths ns) (less : ms < ns) :
    written widths ms < written widths ns := by
  induction fits generalizing ns with
  | nil =>
    cases fits'
    exact absurd less (lt_irrefl _)
  | @cons width m widths ms first _ ih =>
    cases fits' with
    | cons first' later' =>
      have front {k : Nat} {ks : List Nat} :
          written (width :: widths) (k :: ks) = padded width k ++ written widths ks := rfl
      rw [front, front]
      rcases List.cons_lt_cons_iff.mp less with before | ⟨rfl, later⟩
      · refine append_lt_append ?_ (padded_lt_padded first first' before)
        rw [length_padded first.positive first.bound, length_padded first'.positive first'.bound]
      · exact List.append_left_lt (ih later' later)

/-! ### Instants -/

def Instant.fields (i : Instant) : List Nat :=
  [i.date.year.toNat, i.date.month, i.date.day, i.hour, i.minute, i.second]

def Instant.FourDigits (i : Instant) : Prop := 0 ≤ i.date.year ∧ i.date.year ≤ 9999

def stampWidths : List Nat := [4, 2, 2, 2, 2, 2]

theorem toList_stamp {i : Instant} (years : i.FourDigits) :
    i.stamp.toList = written stampWidths i.fields := by
  have year : yearText i.date.year = padded 4 i.date.year.toNat := by
    have positive : ¬i.date.year < 0 := not_lt.mpr years.1
    have early : ¬i.date.year > 9999 := not_lt.mpr years.2
    have value : i.date.year.natAbs = i.date.year.toNat := by omega
    rw [yearText, if_neg positive, if_neg early, value]
  simp [Instant.stamp, year, written, stampWidths, Instant.fields]

/-- Outside leap seconds, what follows the second does not matter. -/
theorem ofUnix_subsecond (sub : n < 1000000000) : Instant.ofUnix s n = Instant.ofUnix s 0 := by
  rw [Instant.ofUnix, Instant.ofUnix, Nat.div_eq_of_lt sub, Nat.zero_div]

theorem fits_fields (years : (Instant.ofUnix s 0).FourDigits) :
    List.Forall₂ Fits stampWidths (Instant.ofUnix s 0).fields := by
  obtain ⟨days, k, -, within, parts⟩ := ofUnix_parts s 0
  rw [parts] at years
  obtain ⟨early, late⟩ : 0 ≤ (Date.ofDays days).year ∧ (Date.ofDays days).year ≤ 9999 := years
  have exist : Timestamp.isDate (Date.ofDays days) = true := by
    apply isDate_ofDays
    simp only [Timestamp.isYear, Bool.and_eq_true, decide_eq_true_eq]
    omega
  obtain ⟨month, day⟩ := Timestamp.le_of_isDate exist
  simp only [parts, Instant.fields, stampWidths]
  exact .cons ⟨by decide, by omega⟩ <| .cons ⟨by decide, by omega⟩ <|
    .cons ⟨by decide, by omega⟩ <| .cons ⟨by decide, by omega⟩ <|
    .cons ⟨by decide, by omega⟩ <| .cons ⟨by decide, by omega⟩ .nil

/-- Of two seconds the later one has the later fields. -/
theorem fields_lt (years : 0 ≤ (Instant.ofUnix s 0).date.year) (later : s < t) :
    (Instant.ofUnix s 0).fields < (Instant.ofUnix t 0).fields := by
  obtain ⟨days, k, second, within, parts⟩ := ofUnix_parts s 0
  obtain ⟨days', k', second', within', parts'⟩ := ofUnix_parts t 0
  simp only [parts] at years
  simp only [parts, parts', Instant.fields, List.cons_lt_cons_iff]
  by_cases same : days = days'
  · subst same
    have clock : k / 3600 < k' / 3600 ∨ k / 3600 = k' / 3600 ∧ (k / 60 % 60 < k' / 60 % 60 ∨
        k / 60 % 60 = k' / 60 % 60 ∧ k % 60 < k' % 60) := by omega
    refine .inr ⟨rfl, .inr ⟨rfl, .inr ⟨rfl, ?_⟩⟩⟩
    rcases clock with hour | ⟨hour, minute | ⟨minute, second⟩⟩
    · exact .inl hour
    · exact .inr ⟨hour, .inl minute⟩
    · exact .inr ⟨hour, .inr ⟨minute, .inl second⟩⟩
  · have date : (Date.ofDays days).Before (Date.ofDays days') := ofDays_before (by omega)
    rcases date with year | ⟨year, month | ⟨month, day⟩⟩
    · exact .inl (by omega)
    · exact .inr ⟨congrArg _ year, .inl month⟩
    · exact .inr ⟨congrArg _ year, .inr ⟨month, .inl day⟩⟩

/-- Of two seconds the later one has the later stamp. -/
theorem stamp_lt_stamp (first : (Instant.ofUnix s 0).FourDigits)
    (second : (Instant.ofUnix t 0).FourDigits) (later : s < t) :
    (Instant.ofUnix s 0).stamp < (Instant.ofUnix t 0).stamp := by
  rw [String.lt_iff_toList_lt, toList_stamp first, toList_stamp second]
  exact written_lt_written (fits_fields first) (fits_fields second) (fields_lt first.1 later)

end Calendar

namespace Gather

open Calendar

variable {s t : Int} {m n : Nat}

theorem defaultDirectory_lt (first : (Instant.ofUnix s 0).FourDigits)
    (second : (Instant.ofUnix t 0).FourDigits) (later : s < t) :
    defaultDirectory (Instant.ofUnix s 0) < defaultDirectory (Instant.ofUnix t 0) := by
  have stamps := stamp_lt_stamp first second later
  rw [String.lt_iff_toList_lt] at stamps ⊢
  rw [defaultDirectory, defaultDirectory, String.toList_append, String.toList_append]
  exact List.append_left_lt stamps

/-- Runs share a directory exactly if they begin within one second, and of two directories the
earlier run has the one that comes first. `m` and `n` are the nanoseconds within the seconds. -/
theorem directories_ordered (s t : Int) (m n : Nat) (within : m < 1000000000)
    (within' : n < 1000000000) (first : (Instant.ofUnix s m).FourDigits)
    (second : (Instant.ofUnix t n).FourDigits) :
    (defaultDirectory (Instant.ofUnix s m) = defaultDirectory (Instant.ofUnix t n) ↔ s = t) ∧
    (defaultDirectory (Instant.ofUnix s m) < defaultDirectory (Instant.ofUnix t n) ↔ s < t) := by
  rw [ofUnix_subsecond within] at first ⊢
  rw [ofUnix_subsecond within'] at second ⊢
  rcases lt_trichotomy s t with before | rfl | after
  · have names := defaultDirectory_lt first second before
    exact ⟨iff_of_false names.ne before.ne, iff_of_true names before⟩
  · exact ⟨iff_of_true rfl rfl, iff_of_false (lt_irrefl _) (lt_irrefl _)⟩
  · have names := defaultDirectory_lt second first after
    exact ⟨iff_of_false names.ne' after.ne', iff_of_false names.asymm after.asymm⟩

/-- The last nanosecond of February 1900, which had no leap day, and the first of March. -/
theorem directories_ordered_march :
    (Instant.ofUnix (-2203891201) 999999999).FourDigits ∧
    (Instant.ofUnix (-2203891200) 0).FourDigits ∧
    defaultDirectory (Instant.ofUnix (-2203891201) 999999999) = "submariner-19000228235959" ∧
    defaultDirectory (Instant.ofUnix (-2203891200) 0) = "submariner-19000301000000" ∧
    defaultDirectory (Instant.ofUnix (-2203891201) 999999999) <
      defaultDirectory (Instant.ofUnix (-2203891200) 0) := by
  have first : (Instant.ofUnix (-2203891201) 999999999).FourDigits := by
    unfold Instant.FourDigits
    decide
  have second : (Instant.ofUnix (-2203891200) 0).FourDigits := by
    unfold Instant.FourDigits
    decide
  exact ⟨first, second, by decide, by decide,
    (directories_ordered (-2203891201) (-2203891200) 999999999 0 (by decide) (by decide)
      first second).2.mpr (by decide)⟩

end Gather
end MultiCluster
