import MultiCluster.Proofs.Calendar

/-! The calendar from day to day. The day after a date has the next date: the next day of the month,
the first of the next month, or New Year's Day. So of two days the later one has the later date. -/
namespace MultiCluster.Calendar

open Timestamp (isLeap monthLength)

variable {era : Int} {m n r y y' n' : Nat} {a b c : Date}

def Date.tomorrow (d : Date) : Date :=
  if d.day < monthLength d.year d.month then { d with day := d.day + 1 }
  else if d.month < 12 then ⟨d.year, d.month + 1, 1⟩
  else ⟨d.year + 1, 1, 1⟩

/-- The days of a year of an era, from the first of March to the end of February. -/
def yearLength (y : Nat) : Nat := if y % 4 = 3 ∧ (y % 100 ≠ 99 ∨ y = 399) then 366 else 365

theorem yearLength_cases : yearLength y = 365 ∨ yearLength y = 366 := by
  unfold yearLength
  split
  · exact .inr rfl
  · exact .inl rfl

theorem daysBefore_succ (short : y < 399) : daysBefore (y + 1) = daysBefore y + yearLength y := by
  unfold daysBefore yearLength
  split <;> omega

theorem daysBefore_mono : Monotone daysBefore := by
  apply monotone_nat_of_le_succ
  intro y
  unfold daysBefore
  omega

theorem daysBefore_add_yearLength (later : y < y') (short : y' < 400) :
    daysBefore y + yearLength y ≤ daysBefore y' := by
  rw [← daysBefore_succ (by omega)]
  exact daysBefore_mono later

theorem daysBefore_lt_era (short : y < 400) (within : n < yearLength y) :
    daysBefore y + n < 146097 := by
  unfold daysBefore
  unfold yearLength at within
  split at within <;> omega

/-- A day lies in one year of one era, at one place. -/
theorem march_unique {era' : Int} (short : y < 400) (within : n < yearLength y) (short' : y' < 400)
    (within' : n' < yearLength y')
    (same : era * 146097 + (daysBefore y + n : Nat) = era' * 146097 + (daysBefore y' + n' : Nat)) :
    era = era' ∧ y = y' ∧ n = n' := by
  have first : daysBefore y + n < 146097 := daysBefore_lt_era short within
  have second : daysBefore y' + n' < 146097 := daysBefore_lt_era short' within'
  obtain rfl : era = era' := by omega
  have day : daysBefore y + n = daysBefore y' + n' := by omega
  rcases Nat.lt_trichotomy y y' with before | rfl | after
  · have apart := daysBefore_add_yearLength before short'
    omega
  · exact ⟨rfl, rfl, by omega⟩
  · have apart := daysBefore_add_yearLength after short
    omega

theorem exists_march (days : Int) : ∃ (era : Int) (y n : Nat),
    Date.ofDays days = Date.ofMarch (era * 400 + y) n ∧
    days = era * 146097 + (daysBefore y + n : Nat) - 719468 ∧ y < 400 ∧ n < yearLength y := by
  obtain ⟨era, y, n, date, counted, short, within, leap⟩ := exists_ofMarch days
  refine ⟨era, y, n, date, counted, short, ?_⟩
  unfold yearLength
  split <;> omega

theorem ofDays_march (era : Int) (short : y < 400) (within : n < yearLength y) :
    Date.ofDays (era * 146097 + (daysBefore y + n : Nat) - 719468) =
      Date.ofMarch (era * 400 + y) n := by
  obtain ⟨era', y', n', date, counted, short', within'⟩ :=
    exists_march (era * 146097 + (daysBefore y + n : Nat) - 719468)
  obtain ⟨rfl, rfl, rfl⟩ : era = era' ∧ y = y' ∧ n = n' :=
    march_unique short within short' within' (by omega)
  exact date

def daysUntil (m : Nat) : Nat := (153 * m + 2) / 5

theorem ofMarch_eq {e : Int} (month : m ≤ 11) (day : r < daysUntil (m + 1) - daysUntil m) :
    Date.ofMarch e (daysUntil m + r) =
      ⟨if m < 10 then e else e + 1, if m < 10 then m + 3 else m - 9, r + 1⟩ := by
  unfold daysUntil at day
  have shifted : (5 * ((153 * m + 2) / 5 + r) + 2) / 153 = m := by omega
  have days : (153 * m + 2) / 5 + r - (153 * m + 2) / 5 = r := by omega
  simp only [Date.ofMarch, daysUntil, shifted, days]
  by_cases early : m < 10
  · have month : ¬m + 3 ≤ 2 := by omega
    simp only [early, if_true, month, if_false]
  · have month : m - 9 ≤ 2 := by omega
    simp only [early, if_false, month, if_true]

theorem exists_month (within : n < 366) : ∃ m r, n = daysUntil m + r ∧ m ≤ 11 ∧
    r < daysUntil (m + 1) - daysUntil m := by
  unfold daysUntil
  exact ⟨(5 * n + 2) / 153, n - (153 * ((5 * n + 2) / 153) + 2) / 5, by omega, by omega, by omega⟩

theorem monthLength_early (year : Int) (early : m ≤ 10) :
    monthLength year (if m < 10 then m + 3 else m - 9) = daysUntil (m + 1) - daysUntil m := by
  unfold daysUntil
  interval_cases m <;> rfl

/-- February has what the months before it leave of the year. -/
theorem monthLength_february (short : y < 400) :
    monthLength (era * 400 + y + 1) 2 = yearLength y - daysUntil 11 := by
  have four : (era * 400 + (y : Int) + 1) % 4 = 0 ↔ y % 4 = 3 := by omega
  have hundred : (era * 400 + (y : Int) + 1) % 100 ≠ 0 ↔ y % 100 ≠ 99 := by omega
  have era' : (era * 400 + (y : Int) + 1) % 400 = 0 ↔ y = 399 := by omega
  have leap : isLeap (era * 400 + y + 1) = true ↔ y % 4 = 3 ∧ (y % 100 ≠ 99 ∨ y = 399) := by
    simp only [isLeap, Bool.and_eq_true, Bool.or_eq_true, beq_iff_eq, bne_iff_ne, four, hundred,
      era']
  simp only [monthLength, beq_self_eq_true, if_true, leap, yearLength]
  split <;> rfl

theorem Date.tomorrow_within {d : Date} (within : d.day < monthLength d.year d.month) :
    d.tomorrow = ⟨d.year, d.month, d.day + 1⟩ := if_pos within

theorem Date.tomorrow_last {d : Date} (last : d.day = monthLength d.year d.month) :
    d.tomorrow = if d.month < 12 then ⟨d.year, d.month + 1, 1⟩ else ⟨d.year + 1, 1, 1⟩ :=
  if_neg last.not_lt

theorem tomorrow_ofMarch (short : y < 400) (within : n + 1 < yearLength y) :
    (Date.ofMarch (era * 400 + y) n).tomorrow = Date.ofMarch (era * 400 + y) (n + 1) := by
  have year : yearLength y = 365 ∨ yearLength y = 366 := yearLength_cases
  obtain ⟨m, r, rfl, month, day⟩ := exists_month (n := n) (by omega)
  rw [ofMarch_eq month day, Nat.add_assoc]
  by_cases february : m = 11
  · subst february
    have start : daysUntil 11 = 337 := rfl
    have later : r + 1 < daysUntil (11 + 1) - daysUntil 11 := by
      have next : daysUntil (11 + 1) = 367 := rfl
      omega
    rw [ofMarch_eq month later, Date.tomorrow_within]
    show r + 1 < monthLength (era * 400 + y + 1) 2
    rw [monthLength_february short]
    omega
  · have length (e : Int) := monthLength_early e (show m ≤ 10 by omega)
    by_cases later : r + 1 < daysUntil (m + 1) - daysUntil m
    · rw [ofMarch_eq month later, Date.tomorrow_within (length _ ▸ later)]
    · have last : r + 1 = daysUntil (m + 1) - daysUntil m := by omega
      have next : daysUntil m + (r + 1) = daysUntil (m + 1) + 0 := by omega
      have some : 0 < daysUntil (m + 1 + 1) - daysUntil (m + 1) := by
        unfold daysUntil
        omega
      rw [next, ofMarch_eq (by omega) some, Date.tomorrow_last (last.trans (length _).symm)]
      clear later last next some length day
      interval_cases m <;> rfl

theorem tomorrow_ofMarch_last (short : y < 400) (last : n + 1 = yearLength y) :
    (Date.ofMarch (era * 400 + y) n).tomorrow = Date.ofMarch (era * 400 + y + 1) 0 := by
  have year : yearLength y = 365 ∨ yearLength y = 366 := yearLength_cases
  have start : daysUntil 11 = 337 := rfl
  obtain ⟨r, rfl⟩ : ∃ r, n = daysUntil 11 + r := ⟨n - 337, by omega⟩
  have day : r < daysUntil (11 + 1) - daysUntil 11 := by
    have next : daysUntil (11 + 1) = 367 := rfl
    omega
  rw [ofMarch_eq le_rfl day, Date.tomorrow_last]
  · rfl
  · show r + 1 = monthLength (era * 400 + y + 1) 2
    rw [monthLength_february short]
    omega

/-- The date of the next day is the next date. -/
theorem ofDays_succ (days : Int) : Date.ofDays (days + 1) = (Date.ofDays days).tomorrow := by
  obtain ⟨era, y, n, date, counted, short, within⟩ := exists_march days
  rw [date]
  by_cases last : n + 1 = yearLength y
  · rw [tomorrow_ofMarch_last short last]
    by_cases turn : y = 399
    · -- The last year of an era is followed by the first of the next one.
      subst turn
      have first := ofDays_march (era + 1) (y := 0) (n := 0) (by decide) (by decide)
      have before : daysBefore 399 = 145731 := rfl
      have length : yearLength 399 = 366 := rfl
      have none : daysBefore 0 = 0 := rfl
      have next : (era + 1) * 400 + ((0 : Nat) : Int) = era * 400 + (399 : Nat) + 1 := by omega
      rw [← next, ← first]
      congr 1
      omega
    · have length : yearLength (y + 1) = 365 ∨ yearLength (y + 1) = 366 := yearLength_cases
      have first := ofDays_march era (y := y + 1) (n := 0) (by omega) (by omega)
      have before : daysBefore (y + 1) = daysBefore y + yearLength y := daysBefore_succ (by omega)
      have next : era * 400 + ((y + 1 : Nat) : Int) = era * 400 + y + 1 := by omega
      rw [← next, ← first]
      congr 1
      omega
  · rw [tomorrow_ofMarch short (by omega), ← ofDays_march era short (by omega)]
    congr 1
    omega

def Date.Before (a b : Date) : Prop :=
  a.year < b.year ∨ a.year = b.year ∧ (a.month < b.month ∨ a.month = b.month ∧ a.day < b.day)

theorem Date.Before.trans (first : a.Before b) (second : b.Before c) : a.Before c := by
  unfold Before at first second ⊢
  omega

theorem Date.before_tomorrow (d : Date) : d.Before d.tomorrow := by
  unfold Before tomorrow
  split
  · exact .inr ⟨rfl, .inr ⟨rfl, Nat.lt_succ_self _⟩⟩
  · split
    · exact .inr ⟨rfl, .inl (Nat.lt_succ_self _)⟩
    · exact .inl (Int.lt_succ _)

/-- Of two days the later one has the later date. -/
theorem ofDays_before {days days' : Int} (later : days < days') :
    (Date.ofDays days).Before (Date.ofDays days') := by
  obtain ⟨k, rfl⟩ : ∃ k : Nat, days' = days + 1 + k := ⟨(days' - days - 1).toNat, by omega⟩
  clear later
  -- The induction is on the days between the two.
  induction k with
  | zero =>
    rw [Int.natCast_zero, Int.add_zero, ofDays_succ]
    exact Date.before_tomorrow _
  | succ k ih =>
    rw [Int.natCast_succ, ← Int.add_assoc, ofDays_succ]
    exact ih.trans (Date.before_tomorrow _)

end MultiCluster.Calendar
