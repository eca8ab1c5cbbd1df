import Mathlib.Tactic.IntervalCases
import MultiCluster.Time.Timestamp

/-! Days and dates. The date of a day is one that exists, and it stands for that day. -/
namespace MultiCluster.Calendar

/-- Days of an era before a year of it, which begins on the first of March. -/
def daysBefore (y : Nat) : Nat := 365 * y + y / 4 - y / 100

/-- The first three centuries of an era have 36524 days each, the last one has a day more. -/
theorem year_of_century {c s h k : Nat} (century : c ≤ 3) (day : s < 36524)
    (shift : h = (24 * c + s) / 1460) (year : k = (s - h) / 365) :
    365 * k + k / 4 ≤ s ∧ s ≤ 365 * k + k / 4 + 365 ∧
      (s = 365 * k + k / 4 + 365 → k % 4 = 3 ∧ k < 99) ∧ k < 100 := by
  refine ⟨by omega, by omega, ?_, by omega⟩
  intro last
  omega

theorem daysBefore_century {c k : Nat} (short : k < 100) :
    daysBefore (100 * c + k) = 36524 * c + (365 * k + k / 4) := by
  have leaps : (100 * c + k) / 4 = 25 * c + k / 4 := by omega
  have centuries : (100 * c + k) / 100 = c := by omega
  rw [daysBefore, leaps, centuries]
  omega

/-- The year of a day of an era, and the day's place in it. -/
theorem year_of_day {n y : Nat} (inEra : n < 146097)
    (year : y = (n - n / 1460 + n / 36524 - n / 146096) / 365) :
    y < 400 ∧ daysBefore y ≤ n ∧ n ≤ daysBefore y + 365 ∧
      (n = daysBefore y + 365 → y % 4 = 3 ∧ (y % 100 ≠ 99 ∨ y = 399)) := by
  by_cases last : n = 146096
  · subst last
    obtain rfl : y = 399 := by omega
    simp [daysBefore]
  · obtain ⟨c, s, rfl, century, day⟩ : ∃ c s, n = 36524 * c + s ∧ c ≤ 3 ∧ s < 36524 :=
      ⟨n / 36524, n % 36524, by omega, by omega, by omega⟩
    have centuries : (36524 * c + s) / 36524 = c := by omega
    have none : (36524 * c + s) / 146096 = 0 := by omega
    have shift : (36524 * c + s) / 1460 = 25 * c + (24 * c + s) / 1460 := by omega
    rw [centuries, none, shift] at year
    obtain ⟨h, shifted⟩ : ∃ h, h = (24 * c + s) / 1460 := ⟨_, rfl⟩
    obtain ⟨k, within⟩ : ∃ k, k = (s - h) / 365 := ⟨_, rfl⟩
    obtain ⟨least, most, leap, short⟩ := year_of_century century day shifted within
    obtain rfl : y = 100 * c + k := by omega
    rw [daysBefore_century short]
    refine ⟨by omega, by omega, by omega, fun same => ?_⟩
    have rare := leap (by omega)
    omega

def Date.ofMarch (year : Int) (dayOfYear : Nat) : Date :=
  let shifted := (5 * dayOfYear + 2) / 153
  let month := if shifted < 10 then shifted + 3 else shifted - 9
  ⟨if month ≤ 2 then year + 1 else year, month, dayOfYear - (153 * shifted + 2) / 5 + 1⟩

/-- A day is a day of an era, and so one of a year of it. -/
theorem exists_ofMarch (days : Int) : ∃ (era : Int) (y n : Nat),
    Date.ofDays days = Date.ofMarch (era * 400 + y) n ∧
    days = era * 146097 + (daysBefore y + n : Nat) - 719468 ∧ y < 400 ∧ n ≤ 365 ∧
    (n = 365 → y % 4 = 3 ∧ (y % 100 ≠ 99 ∨ y = 399)) := by
  obtain ⟨era, counted⟩ : ∃ era : Int, era = (days + 719468) / 146097 := ⟨_, rfl⟩
  obtain ⟨d, day⟩ : ∃ d : Nat, d = (days + 719468 - era * 146097).toNat := ⟨_, rfl⟩
  obtain ⟨y, year⟩ : ∃ y, y = (d - d / 1460 + d / 36524 - d / 146096) / 365 := ⟨_, rfl⟩
  obtain ⟨short, least, most, leap⟩ := year_of_day (by omega) year
  refine ⟨era, y, d - daysBefore y, ?_, by omega, short, by omega, fun last => leap (by omega)⟩
  have whole : (days + 719468).fdiv 146097 = era := by
    rw [Int.fdiv_eq_ediv_of_nonneg _ (by decide), counted]
  have before : d - (365 * y + y / 4 - y / 100) = d - daysBefore y := rfl
  simp only [Date.ofDays, whole, ← day, ← year, before]
  rfl

open Timestamp (daysOf isLeap monthLength)

variable {era : Int} {y n : Nat}

theorem daysOf_eq {year : Int} {month day m : Nat} (short : y < 400)
    (inYear : (if month ≤ 2 then year - 1 else year) = era * 400 + y)
    (inMonth : (if month > 2 then month - 3 else month + 9) = m)
    (inDay : (153 * m + 2) / 5 + day - 1 = n) :
    daysOf year month day = era * 146097 + (daysBefore y + n : Nat) - 719468 := by
  have whole : (era * 400 + (y : Int)).fdiv 400 = era := by
    rw [Int.fdiv_eq_ediv_of_nonneg _ (by decide)]
    omega
  have rest : (era * 400 + (y : Int) - era * 400).toNat = y := by omega
  have before : y * 365 + y / 4 - y / 100 = daysBefore y := by rw [daysBefore, Nat.mul_comm]
  simp only [daysOf, inYear, inMonth, inDay, whole, rest, before]

/-- The date of a day stands for that day. -/
theorem daysOf_ofMarch (short : y < 400) (within : n ≤ 365) :
    daysOf (Date.ofMarch (era * 400 + y) n).year (Date.ofMarch (era * 400 + y) n).month
        (Date.ofMarch (era * 400 + y) n).day =
      era * 146097 + (daysBefore y + n : Nat) - 719468 := by
  have start : (153 * ((5 * n + 2) / 153) + 2) / 5 ≤ n := by omega
  by_cases early : (5 * n + 2) / 153 < 10
  · simp only [Date.ofMarch, early, if_true]
    exact daysOf_eq short (by split <;> omega) (if_pos (by omega)) (by omega)
  · simp only [Date.ofMarch, early, if_false]
    refine daysOf_eq (m := (5 * n + 2) / 153) short (by split <;> omega) ?_ (by omega)
    rw [if_neg (by omega)]
    omega

theorem month_ofMarch {e : Int} (within : n ≤ 365) :
    1 ≤ (Date.ofMarch e n).month ∧ (Date.ofMarch e n).month ≤ 12 ∧ 1 ≤ (Date.ofMarch e n).day := by
  simp only [Date.ofMarch]
  refine ⟨by split <;> omega, by split <;> omega, by omega⟩

/-- A year with a leap day ends in a leap year. -/
theorem isLeap_next (last : y % 4 = 3 ∧ (y % 100 ≠ 99 ∨ y = 399)) :
    isLeap (era * 400 + y + 1) = true := by
  have four : (era * 400 + (y : Int) + 1) % 4 = 0 := by omega
  have hundred : (era * 400 + (y : Int) + 1) % 100 ≠ 0 ∨ (era * 400 + (y : Int) + 1) % 400 = 0 := by
    omega
  simpa [isLeap, four] using hundred

theorem day_ofMarch (within : n ≤ 365)
    (leap : n = 365 → y % 4 = 3 ∧ (y % 100 ≠ 99 ∨ y = 399)) :
    (Date.ofMarch (era * 400 + y) n).day ≤ monthLength (Date.ofMarch (era * 400 + y) n).year
      (Date.ofMarch (era * 400 + y) n).month := by
  obtain ⟨m, shifted⟩ : ∃ m, (5 * n + 2) / 153 = m := ⟨_, rfl⟩
  have months : m ≤ 11 := by omega
  by_cases february : m = 11
  · subst february
    simp only [Date.ofMarch, shifted]
    show n - 337 + 1 ≤ if isLeap (era * 400 + y + 1) then 29 else 28
    by_cases last : n = 365
    · rw [if_pos (isLeap_next (leap last)), last]
    · split <;> omega
  · simp only [Date.ofMarch, shifted, monthLength]
    interval_cases m <;> simp <;> omega

theorem daysOf_ofDays (days : Int) : daysOf (Date.ofDays days).year (Date.ofDays days).month
    (Date.ofDays days).day = days := by
  obtain ⟨era, y, n, same, counted, short, within, -⟩ := exists_ofMarch days
  rw [same, daysOf_ofMarch short within, counted]

theorem isDate_ofDays {days : Int} (year : Timestamp.isYear (Date.ofDays days).year = true) :
    Timestamp.isDate (Date.ofDays days) = true := by
  obtain ⟨era, y, n, same, -, -, within, leap⟩ := exists_ofMarch days
  rw [same] at year ⊢
  obtain ⟨first, last, positive⟩ := month_ofMarch (e := era * 400 + y) within
  simp only [Timestamp.isDate, Bool.and_eq_true, decide_eq_true_eq]
  exact ⟨⟨⟨⟨year, first⟩, last⟩, positive⟩, day_ofMarch within leap⟩

/-- A second is one of a day, and its place in it gives the clock. -/
theorem ofUnix_parts (unix : Int) (nanos : Nat) : ∃ (days : Int) (s : Nat),
    unix = days * 86400 + s ∧ s < 86400 ∧ Instant.ofUnix unix nanos =
      ⟨Date.ofDays days, s / 3600, s / 60 % 60, s % 60 + nanos / 1000000000⟩ := by
  obtain ⟨days, whole⟩ : ∃ days, days = unix.fdiv 86400 := ⟨_, rfl⟩
  have counted : days = unix / 86400 := by
    rw [whole, Int.fdiv_eq_ediv_of_nonneg _ (by decide)]
  refine ⟨days, (unix - days * 86400).toNat, by omega, by omega, ?_⟩
  rw [Instant.ofUnix, ← whole]

end MultiCluster.Calendar
