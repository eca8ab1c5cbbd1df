import Mathlib.Data.List.TakeWhile
import Mathlib.Tactic.Ring
import MultiCluster.Proofs.Calendar
import MultiCluster.Proofs.Numeral

/-! Timestamps that were brought to UTC. Such a timestamp is read as the moment that it was written
for, so bringing it to UTC once more leaves it as it is. -/
namespace MultiCluster

namespace Calendar

variable {width n : Nat}

theorem isDigit_padded : ∀ c ∈ padded width n, c.isDigit = true := by
  rw [padded, List.forall_mem_append]
  refine ⟨fun c member => ?_, fun c => Nat.isDigit_of_mem_toDigits (by decide) (by decide)⟩
  rw [List.eq_of_mem_replicate member]
  decide

theorem length_padded (positive : 0 < width) (bound : n < 10 ^ width) :
    (padded width n).length = width := by
  have fits : (Nat.toDigits 10 n).length ≤ width :=
    (Nat.length_toDigits_le_iff (by decide) positive).mpr bound
  simp only [padded, List.length_append, List.length_replicate]
  omega

theorem ofDigitChars_zeros {k : Nat} {cs : List Char} :
    Nat.ofDigitChars 10 (List.replicate k '0' ++ cs) 0 = Nat.ofDigitChars 10 cs 0 := by
  induction k with
  | zero => rfl
  | succ k ih => rw [List.replicate_succ, List.cons_append, Nat.ofDigitChars_cons]; exact ih

theorem digits?_padded : Text.digits? (padded width n) = some n := by
  refine Text.digits?_eq_some_iff.mpr ⟨?_, isDigit_padded, ?_⟩
  · exact List.append_ne_nil_of_right_ne_nil _ Nat.toDigits_ne_nil
  · rw [padded, ofDigitChars_zeros, Nat.ofDigitChars_ten_toDigits]

end Calendar

namespace Timestamp

open Calendar

variable {places n : Nat} {rest : List Char} {c : Char} {d : Date} {i : Instant}

theorem field_padded {width : Nat} (positive : 0 < width) (bound : n < 10 ^ width) :
    field width (padded width n ++ rest) = some (n, rest) := by
  have length := length_padded positive bound
  have long : ¬ (padded width n ++ rest).length < width := by
    rw [List.length_append]
    omega
  rw [field, if_neg long, List.take_left' length, List.drop_left' length, digits?_padded]
  rfl

theorem digits_padded {width : Nat} (stops : c.isDigit = false) :
    digits (padded width n ++ c :: rest) = some (n, c :: rest) := by
  have front : (padded width n ++ c :: rest).takeWhile Char.isDigit = padded width n := by
    rw [List.takeWhile_append_of_pos isDigit_padded]
    simp [stops]
  have back : (padded width n ++ c :: rest).dropWhile Char.isDigit = c :: rest := by
    rw [List.dropWhile_append_of_pos isDigit_padded]
    simp [stops]
  rw [digits, front, back, digits?_padded]
  rfl

theorem year_yearText {y : Int} (stops : c.isDigit = false) :
    year (yearText y ++ c :: rest) = some (y, c :: rest) := by
  unfold yearText
  split
  · next negative =>
    rw [List.cons_append, year, digits_padded stops]
    simp only [Option.map_some, Option.some.injEq, Prod.mk.injEq, and_true]
    omega
  · split
    · next late =>
      rw [List.cons_append, year, digits_padded stops]
      simp only [Option.map_some, Option.some.injEq, Prod.mk.injEq, and_true]
      omega
    · next positive early =>
      have bound : y.natAbs < 10 ^ 4 := by omega
      have signless {sign : Char} (noDigit : sign.isDigit = false) (later : List Char) :
          padded 4 y.natAbs ++ c :: rest ≠ sign :: later := by
        intro same
        cases text : padded 4 y.natAbs with
        | nil =>
          have length := length_padded (by decide) bound
          rw [text] at length
          cases length
        | cons first others =>
          rw [text, List.cons_append] at same
          have digit : first.isDigit = true := isDigit_padded first (by rw [text]; simp)
          rw [(List.cons.inj same).1, noDigit] at digit
          cases digit
      rw [year.eq_3 _ (signless (by decide)) (signless (by decide)),
        field_padded (by decide) bound]
      simp only [Option.map_some, Option.some.injEq, Prod.mk.injEq, and_true]
      omega

theorem le_of_isDate (exist : isDate d = true) : d.month ≤ 12 ∧ d.day ≤ 31 := by
  simp only [isDate, Bool.and_eq_true, decide_eq_true_eq] at exist
  obtain ⟨⟨⟨⟨-, -⟩, month⟩, -⟩, day⟩ := exist
  have length : monthLength d.year d.month ≤ 31 := by
    unfold monthLength
    split <;> split <;> omega
  exact ⟨month, day.trans length⟩

theorem date_dateText (exist : isDate d = true) :
    date (dateText d ++ rest) = some (d, rest) := by
  obtain ⟨month, day⟩ := le_of_isDate exist
  have months : d.month < 10 ^ 2 := by omega
  have days : d.day < 10 ^ 2 := by omega
  have dash (cs : List Char) : expect '-' ('-' :: cs) = some cs := rfl
  simp only [date, dateText, List.append_assoc, List.cons_append, Option.bind_eq_bind]
  rw [year_yearText (by decide)]
  simp only [Option.bind_some, dash]
  rw [field_padded (by decide) months]
  simp only [Option.bind_some, dash]
  rw [field_padded (by decide) days]
  simp only [Option.bind_some, exist, if_true]

def keptDecimals (places : Nat) (decimals : List Char) : List Char :=
  (decimals ++ List.replicate places '0').take places

variable {decimals : List Char}

theorem isDigit_keptDecimals (each : ∀ c ∈ decimals, c.isDigit = true) :
    ∀ c ∈ keptDecimals places decimals, c.isDigit = true := by
  intro c member
  rcases List.mem_append.mp (List.mem_of_mem_take member) with own | zero
  · exact each c own
  · rw [List.eq_of_mem_replicate zero]
    decide

theorem length_keptDecimals : (keptDecimals places decimals).length = places := by
  simp [keptDecimals]

theorem keptDecimals_kept :
    keptDecimals places (keptDecimals places decimals) = keptDecimals places decimals :=
  List.take_left' length_keptDecimals

theorem fraction_fractionText (each : ∀ c ∈ decimals, c.isDigit = true) :
    fraction (fractionText places decimals ++ ['Z']) =
      some (keptDecimals places decimals, ['Z']) := by
  have digits : ∀ c ∈ keptDecimals places decimals, c.isDigit = true := isDigit_keptDecimals each
  by_cases whole : places = 0
  · subst whole
    rfl
  · have present : keptDecimals places decimals ≠ [] := by
      intro empty
      have length : (keptDecimals places decimals).length = places := length_keptDecimals
      rw [empty] at length
      exact whole length.symm
    have stops : Char.isDigit 'Z' = false := by decide
    have front : (keptDecimals places decimals ++ ['Z']).takeWhile Char.isDigit =
        keptDecimals places decimals := by
      rw [List.takeWhile_append_of_pos digits]
      simp [stops]
    have back : (keptDecimals places decimals ++ ['Z']).dropWhile Char.isDigit = ['Z'] := by
      rw [List.dropWhile_append_of_pos digits]
      simp [stops]
    have written : fractionText places decimals ++ ['Z'] =
        '.' :: (keptDecimals places decimals ++ ['Z']) := by
      simp [fractionText, whole, keptDecimals]
    rw [written, fraction, front, back]
    simp [present]

theorem clock_clockText (hour : i.hour ≤ 23) (minute : i.minute ≤ 59) (second : i.second ≤ 60)
    (each : ∀ c ∈ decimals, c.isDigit = true) :
    clock (clockText i ++ (fractionText places decimals ++ ['Z'])) =
      some (⟨i.hour * 3600 + i.minute * 60 + min i.second 59, i.second == 60,
        keptDecimals places decimals⟩, ['Z']) := by
  have colon (cs : List Char) : expect ':' (':' :: cs) = some cs := rfl
  simp only [clock, clockText, List.append_assoc, List.cons_append, Option.bind_eq_bind]
  rw [field_padded (by decide) (by omega)]
  simp only [Option.bind_some, colon]
  rw [field_padded (by decide) (by omega)]
  simp only [Option.bind_some, colon]
  rw [field_padded (by decide) (by omega)]
  simp only [Option.bind_some]
  rw [fraction_fractionText each]
  simp [hour, minute, second]

theorem digits_of_fraction {cs : List Char} (read : fraction cs = some (decimals, rest)) :
    ∀ c ∈ decimals, c.isDigit = true := by
  unfold fraction at read
  split at read
  · next later =>
    simp only [] at read
    split at read
    · cases read
    · obtain ⟨rfl, rfl⟩ := Prod.mk.inj (Option.some.inj read)
      exact fun c member => List.mem_takeWhile_imp member
  · obtain ⟨rfl, rfl⟩ := Prod.mk.inj (Option.some.inj read)
    simp

theorem clock_sound {cs : List Char} {k : Clock} (read : clock cs = some (k, rest)) :
    (k.leap = true → k.seconds % 60 = 59) ∧ ∀ c ∈ k.decimals, c.isDigit = true := by
  simp only [clock, Option.bind_eq_bind, Option.bind_eq_some_iff] at read
  obtain ⟨⟨hour, cs⟩, -, _, -, ⟨minute, _⟩, -, _, -, ⟨second, _⟩, -, ⟨decimals, _⟩, digits, valid⟩ :=
    read
  split at valid
  · obtain ⟨rfl, -⟩ := Prod.mk.inj (Option.some.inj valid)
    refine ⟨fun leap => ?_, digits_of_fraction digits⟩
    simp only [beq_iff_eq] at leap ⊢
    omega
  · cases valid

/-- Clocks differ from UTC by whole minutes. -/
theorem offset_minutes {cs : List Char} {shift : Int} (read : offset cs = some shift) :
    shift % 60 = 0 := by
  unfold offset at read
  split at read
  · obtain rfl := Option.some.inj read
    rfl
  · obtain rfl := Option.some.inj read
    rfl
  · simp only [Option.bind_eq_bind, Option.bind_eq_some_iff] at read
    obtain ⟨s, -, ⟨h, _⟩, -, _, -, ⟨m, _⟩, -, valid⟩ := read
    split at valid
    · obtain rfl := Option.some.inj valid
      have minutes : s * ((h : Int) * 3600 + m * 60) = 60 * (s * (h * 60 + m)) := by ring
      exact Int.emod_eq_zero_of_dvd ⟨_, minutes⟩
    · cases valid
  · cases read

/-- A moment that a text can state: in a year of the calendar, and with leap seconds at the end of
minutes. -/
structure Moment.Sound (m : Moment) : Prop where
  year : isYear m.instant.date.year = true
  leap : m.leap = true → m.unix % 60 = 59
  decimals : ∀ c ∈ m.decimals, c.isDigit = true

namespace Moment

variable {m : Moment}

def kept (places : Nat) (m : Moment) : Moment :=
  { m with decimals := keptDecimals places m.decimals }

theorem instant_parts (m : Moment) : ∃ (days : Int) (s : Nat), m.unix = days * 86400 + s ∧
    s < 86400 ∧ m.instant = ⟨Date.ofDays days, s / 3600, s / 60 % 60,
      s % 60 + if m.leap then 1 else 0⟩ := by
  obtain ⟨days, s, unix, day, parts⟩ := ofUnix_parts m.unix (if m.leap then 1000000000 else 0)
  refine ⟨days, s, unix, day, ?_⟩
  rw [instant, parts]
  cases m.leap <;> rfl

/-- The clock of a moment shows the seconds of its day, and a leap second as the sixtieth. -/
theorem clock_instant (sound : m.Sound) {days : Int} {s : Nat} (unix : m.unix = days * 86400 + s)
    (parts : m.instant = ⟨Date.ofDays days, s / 3600, s / 60 % 60,
      s % 60 + if m.leap then 1 else 0⟩) :
    m.instant.second ≤ 60 ∧
    m.instant.hour * 3600 + m.instant.minute * 60 + min m.instant.second 59 = s ∧
    (m.instant.second == 60) = m.leap := by
  have second : m.instant.second = s % 60 + if m.leap then 1 else 0 := by rw [parts]
  have minute : m.instant.minute = s / 60 % 60 := by rw [parts]
  have hour : m.instant.hour = s / 3600 := by rw [parts]
  rw [hour, minute, second]
  cases leap : m.leap with
  | true =>
    have last := sound.leap leap
    have late : s % 60 = 59 := by omega
    simp only [if_true]
    exact ⟨by omega, by omega, by simp [late]⟩
  | false =>
    simp only [Bool.false_eq_true, if_false, beq_eq_false_iff_ne]
    omega

theorem ofChars?_text (sound : m.Sound) : ofChars? (m.text places) = some (m.kept places) := by
  obtain ⟨days, s, unix, day, parts⟩ := instant_parts m
  obtain ⟨bound, counted, leaps⟩ := clock_instant sound unix parts
  have exist : isDate m.instant.date = true := by
    have year := sound.year
    rw [parts] at year ⊢
    exact isDate_ofDays year
  have back : daysOf m.instant.date.year m.instant.date.month m.instant.date.day = days := by
    rw [parts]
    exact daysOf_ofDays days
  have again : Moment.mk (days * 86400 + s - 0) m.leap (keptDecimals places m.decimals) =
      m.kept places := by
    rw [kept, unix, Int.sub_zero]
  have minute : m.instant.minute = s / 60 % 60 := by rw [parts]
  have hour : m.instant.hour = s / 3600 := by rw [parts]
  simp only [ofChars?, text, Option.bind_eq_bind]
  rw [date_dateText exist]
  simp only [Option.bind_some, separator]
  rw [clock_clockText (by omega) (by omega) bound sound.decimals]
  simp only [Option.bind_some, offset, back, counted, leaps, again]
  exact if_pos sound.year

theorem text_kept : (m.kept places).text places = m.text places := by
  have fraction : fractionText places (keptDecimals places m.decimals) =
      fractionText places m.decimals := by
    show (if _ then _ else '.' :: keptDecimals places (keptDecimals places m.decimals)) = _
    rw [keptDecimals_kept]
    rfl
  show dateText m.instant.date ++ 'T' ::
    (clockText m.instant ++ (fractionText places (keptDecimals places m.decimals) ++ ['Z'])) = _
  rw [fraction]
  rfl

theorem sound_of_ofChars? {cs : List Char} (read : ofChars? cs = some m) : m.Sound := by
  simp only [ofChars?, Option.bind_eq_bind, Option.bind_eq_some_iff] at read
  obtain ⟨⟨date, cs⟩, -, later, -, ⟨clock, zone⟩, timed, shift, shifted, valid⟩ := read
  split at valid
  · next year =>
    obtain rfl := Option.some.inj valid
    have minutes := offset_minutes shifted
    obtain ⟨leap, digits⟩ := clock_sound timed
    refine ⟨year, fun late => ?_, digits⟩
    have last := leap late
    simp only
    omega
  · cases valid

end Moment

/-- What was brought to UTC once stays as it is. -/
theorem normalize_normalize {s t : String} (read : normalize places s = some t) :
    normalize places t = some t := by
  obtain ⟨m, stated, rfl⟩ := Option.map_eq_some_iff.mp read
  rw [normalize, String.toList_ofList, Moment.ofChars?_text (Moment.sound_of_ofChars? stated),
    Option.map_some, Moment.text_kept]

end Timestamp
end MultiCluster
