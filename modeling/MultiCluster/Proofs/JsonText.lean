import Mathlib.Data.List.Forall2
import MultiCluster.Json.Document
import MultiCluster.Json.Printer

/-! Reading back what is printed. The text of a string, a number or a word is one token for each of
them, and the texts of lists and objects are put together from those of their parts. -/
namespace MultiCluster.Json

variable {acc : List StringUnit} {c : Char} {cs : List Char} {m m' : ScanMode} {rest : List Char}
  {t : Token}

theorem scan_of_silent (step : scanStep m c = some (m', [])) :
    scan m (c :: rest) = scan m' rest := by
  simp only [scan, step, Option.bind_eq_bind, Option.bind_some, List.nil_append]
  cases scan m' rest <;> rfl

theorem scan_of_token (step : scanStep m c = some (m', [t])) :
    scan m (c :: rest) = (scan m' rest).map (t :: ·) := by
  simp only [scan, step, Option.bind_eq_bind, Option.bind_some, List.singleton_append]
  cases scan m' rest <;> rfl

def Stops (rest : List Char) : Prop :=
  ∀ c later, rest = c :: later → isNumberChar c = false ∧ c.isLower = false

theorem stops_nil : Stops [] := by
  intro c later same
  cases same

theorem stops_cons (stops : isNumberChar c = false ∧ c.isLower = false) : Stops (c :: rest) := by
  rintro _ _ ⟨⟩
  exact stops

/-- A number or a word that is not gone on with is complete. -/
theorem scan_complete {ts : List Token} (running : ∀ c later, rest = c :: later →
    scanStep m c = do
      let done ← m.finish
      let (m', ts) ← scanIdle c
      pure (m', done ++ ts)) (complete : m.finish = some ts) :
    scan m rest = (scan .idle rest).map (ts ++ ·) := by
  cases rest with
  | nil =>
    have idle : scan .idle [] = some [] := rfl
    rw [idle, scan, complete]
    simp
  | cons c later =>
    have idle : scanStep .idle c = scanIdle c := rfl
    simp only [scan, running c later rfl, complete, idle, Option.bind_eq_bind, Option.bind_some]
    cases scanIdle c with
    | none => rfl
    | some next =>
      obtain ⟨m', us⟩ := next
      simp only [Option.bind_some, pure]
      cases scan m' later with
      | none => rfl
      | some more => simp

theorem scan_word {ts : List Token} {acc : List Char} (stops : Stops rest)
    (complete : (ScanMode.word acc).finish = some ts) :
    scan (.word acc) rest = (scan .idle rest).map (ts ++ ·) := by
  refine scan_complete (fun c later same => ?_) complete
  have notLower := (stops c later same).2
  simp only [scanStep, notLower, Bool.false_eq_true, if_false]

theorem scan_number {acc : List Char} (digits : ∀ c ∈ cs, isNumberChar c = true) :
    scan (.number acc) (cs ++ rest) = scan (.number (cs.reverse ++ acc)) rest := by
  induction cs generalizing acc with
  | nil => rfl
  | cons c later ih =>
    rw [List.forall_mem_cons] at digits
    have step : scanStep (.number acc) c = some (.number (c :: acc), []) := by
      simp [scanStep, digits.1]
    rw [List.cons_append, scan_of_silent step, ih digits.2]
    simp

theorem scanIdle_number (first : (c == '-' || c.isDigit) = true) :
    scanIdle c = some (.number [c], []) := by
  have other (d : Char) (apart : (d == '-' || d.isDigit) = false) : (c == d) = false := by
    refine beq_eq_false_iff_ne.mpr ?_
    rintro rfl
    rw [first] at apart
    cases apart
  simp only [scanIdle, other ' ' rfl, other '\n' rfl, other '\t' rfl, other '\r' rfl, other '[' rfl,
    other ']' rfl, other '\x7b' rfl, other '\x7d' rfl, other ',' rfl, other ':' rfl, other '"' rfl,
    Bool.or_self, Bool.false_eq_true, if_false, first, if_true]

/-- A text of number characters is one token, if it is a numeral. -/
theorem scan_numeral {n : Numeral} (first : (c == '-' || c.isDigit) = true)
    (digits : ∀ d ∈ cs, isNumberChar d = true) (numeral : Numeral.ofChars? (c :: cs) = some n)
    (stops : Stops rest) :
    scan .idle (c :: (cs ++ rest)) = (scan .idle rest).map ([Token.number n] ++ ·) := by
  have begins : scanStep .idle c = some (.number [c], []) := scanIdle_number first
  rw [scan_of_silent begins, scan_number digits]
  refine scan_complete (fun d later same => ?_) ?_
  · have notNumber := (stops d later same).1
    simp only [scanStep, notNumber, Bool.false_eq_true, if_false]
  · simp [ScanMode.finish, numeral]

theorem hexValue?_hexDigit {n : Nat} (bound : n < 16) :
    hexValue? (Text.hexDigit n) = some n := by
  have every : ∀ d < 16, hexValue? (Text.hexDigit d) = some d := by decide
  exact every n bound

theorem scan_hexDigit {missing value n : Nat} (bound : n < 16) (more : 1 < missing) :
    scan (.hex acc missing value) (Text.hexDigit n :: rest) =
      scan (.hex acc (missing - 1) (16 * value + n)) rest := by
  refine scan_of_silent ?_
  simp [scanStep, hexValue?_hexDigit bound, Nat.not_le.mpr more]

theorem scan_lastHexDigit {value n : Nat} (bound : n < 16) :
    scan (.hex acc 1 value) (Text.hexDigit n :: rest) =
      scan (.string (.code (16 * value + n) :: acc)) rest := by
  refine scan_of_silent ?_
  simp [scanStep, hexValue?_hexDigit bound]

theorem scan_hex4 {n : Nat} (bound : n < 65536) :
    scan (.hex acc 4 0) (hex4 n ++ rest) = scan (.string (.code n :: acc)) rest := by
  have whole : 16 * (16 * (16 * (16 * 0 + n / 4096 % 16) + n / 256 % 16) + n / 16 % 16) + n % 16
      = n := by omega
  have digit {k : Nat} : k % 16 < 16 := Nat.mod_lt k (by decide)
  simp only [hex4, List.map_cons, List.map_nil, List.cons_append, List.nil_append]
  rw [scan_hexDigit digit (by decide), scan_hexDigit digit (by decide),
    scan_hexDigit digit (by decide), scan_lastHexDigit digit, whole]

def shortControls : List Char := ['\n', '\r', '\t', '\x08', '\x0c']

def unitOf (c : Char) : StringUnit :=
  if c.toNat < 0x20 ∧ c ∉ shortControls then .code c.toNat else .plain c

theorem scan_escaped {e : Char} (escape : e ≠ 'u') (simple : simpleEscape? e = some c) :
    scan (.string acc) ('\\' :: e :: rest) = scan (.string (.plain c :: acc)) rest := by
  have read : scanStep (.escape acc) e = some (.string (.plain c :: acc), []) := by
    simp [scanStep, escape, simple]
  rw [scan_of_silent rfl, scan_of_silent read]

theorem scan_escapeChar :
    scan (.string acc) (escapeChar c ++ rest) = scan (.string (unitOf c :: acc)) rest := by
  unfold escapeChar
  simp only [beq_iff_eq]
  -- the seven characters with an escape of their own
  iterate 7
    split
    · next own => subst own; exact scan_escaped (by decide) (by decide)
  have notShort : c ∉ shortControls := by simp_all [shortControls]
  split
  · next control =>
    have unit : unitOf c = .code c.toNat := by simp [unitOf, control, notShort]
    rw [unit, List.append_assoc, List.cons_append, List.cons_append, List.nil_append,
      scan_of_silent rfl, scan_of_silent rfl, scan_hex4 (by omega)]
  · next verbatim =>
    have unit : unitOf c = .plain c := by simp [unitOf, verbatim]
    rw [unit, List.singleton_append]
    exact scan_of_silent (by simp_all [scanStep])

theorem scan_escapes : scan (.string acc) (cs.flatMap escapeChar ++ rest) =
    scan (.string ((cs.map unitOf).reverse ++ acc)) rest := by
  induction cs generalizing acc with
  | nil => rfl
  | cons c later ih =>
    rw [List.flatMap_cons, List.append_assoc, scan_escapeChar, ih]
    simp

theorem scan_printString {s : String} : scan .idle (printString s ++ rest) =
    (scan .idle rest).map (Token.string (s.toList.map unitOf) :: ·) := by
  rw [printString, List.cons_append, List.append_assoc,
    scan_of_silent rfl, scan_escapes, List.append_nil, List.singleton_append]
  exact scan_of_token (by simp [scanStep])

theorem decodeUnits_code {n : Nat} {units : List StringUnit} (below : n < 0xD800) :
    decodeUnits (.code n :: units) = (decodeUnits units).map (Char.ofNat n :: ·) := by
  have notHigh : isHighSurrogate n = false := by
    simp only [isHighSurrogate, Bool.and_eq_false_imp, decide_eq_true_eq]
    omega
  have notLow : isLowSurrogate n = false := by
    simp only [isLowSurrogate, Bool.and_eq_false_imp, decide_eq_true_eq]
    omega
  rw [decodeUnits.eq_def (.code n :: units)]
  simp [notHigh, notLow]

/-- Control characters are below the surrogates, so their codes stand alone. -/
theorem decodeUnits_unitOf : decodeUnits (cs.map unitOf) = some cs := by
  induction cs with
  | nil => rfl
  | cons c later ih =>
    rw [List.map_cons]
    by_cases control : c.toNat < 0x20 ∧ c ∉ shortControls
    · rw [unitOf, if_pos control, decodeUnits_code (by omega), ih, Char.ofNat_toNat]
      rfl
    · rw [unitOf, if_neg control, decodeUnits, ih]
      rfl

namespace Document

variable {d : Document} {ds : List Document} {k : String} {ts : List Token} {v : Json}
  {vs : List Json}

@[simp] theorem stringOf_unitOf {s : String} : stringOf (s.toList.map unitOf) = some s := by
  simp [stringOf, decodeUnits_unitOf]

/-- A text that stands for a document wherever a value may stand, the first place of a list
included, whatever comes after it that does not go on with it. -/
structure Spells (cs : List Char) (ts : List Token) (d : Document) : Prop where
  scanned : ∀ rest, Stops rest → scan .idle (cs ++ rest) = (scan .idle rest).map (ts ++ ·)
  read : ∀ stack rest, run (.value stack) (ts ++ rest) = run (close d stack) rest
  leading : ∀ stack rest,
    run (.firstItem stack) (ts ++ rest) = run (.value (.array [] :: stack)) (ts ++ rest)

def Printed (v : Json) (d : Document) : Prop := ∃ ts, Spells v.print ts d

theorem printed_str {s : String} : Printed (.str s) (.string (some s)) := by
  refine ⟨[.string (s.toList.map unitOf)], ?_, ?_, ?_⟩
  · intro rest _
    exact scan_printString
  · intro stack rest
    simp [run, step, startValue]
  · intro stack rest
    rfl

theorem printed_null : Printed .null .null := by
  refine ⟨[.null], fun rest stops => ?_, fun _ _ => rfl, fun _ _ => rfl⟩
  show scan .idle ('n' :: 'u' :: 'l' :: 'l' :: rest) = _
  rw [scan_of_silent rfl, scan_of_silent rfl, scan_of_silent rfl, scan_of_silent rfl]
  exact scan_word stops rfl

theorem printed_bool {b : Bool} : Printed (.bool b) (.bool b) := by
  refine ⟨[.bool b], fun rest stops => ?_, fun _ _ => rfl, fun _ _ => rfl⟩
  cases b with
  | true =>
    show scan .idle ('t' :: 'r' :: 'u' :: 'e' :: rest) = _
    rw [scan_of_silent rfl, scan_of_silent rfl, scan_of_silent rfl, scan_of_silent rfl]
    exact scan_word stops rfl
  | false =>
    show scan .idle ('f' :: 'a' :: 'l' :: 's' :: 'e' :: rest) = _
    rw [scan_of_silent rfl, scan_of_silent rfl, scan_of_silent rfl, scan_of_silent rfl,
      scan_of_silent rfl]
    exact scan_word stops rfl

theorem printed_number {c : Char} {cs : List Char} {n : Numeral} (text : v.print = c :: cs)
    (first : (c == '-' || c.isDigit) = true) (digits : ∀ d ∈ cs, isNumberChar d = true)
    (numeral : Numeral.ofChars? (c :: cs) = some n) : Printed v (.number n) := by
  refine ⟨[.number n], fun rest stops => ?_, fun _ _ => rfl, fun _ _ => rfl⟩
  rw [text, List.cons_append]
  exact scan_numeral first digits numeral stops

theorem stops_printItems {rest : List Char} : Stops (printItems vs ++ rest) := by
  cases vs with
  | nil => exact stops_cons (by decide)
  | cons v later => exact stops_cons (by decide)

theorem stops_printFields {fields : Fields} {rest : List Char} :
    Stops (printFields fields ++ rest) := by
  cases fields with
  | nil => exact stops_cons (by decide)
  | cons field later => exact stops_cons (by decide)

/-- The items of a list that follow its first one, up to its end. -/
theorem items_spelled (all : List.Forall₂ Printed vs ds) :
    ∃ ts, (∀ rest, scan .idle (printItems vs ++ rest) = (scan .idle rest).map (ts ++ ·)) ∧
      ∀ before stack rest, run (.afterItem before stack) (ts ++ rest) =
        run (close (.array (before.reverse ++ ds)) stack) rest := by
  induction all with
  | nil =>
    refine ⟨[.closeArray], ?_, ?_⟩
    · intro rest
      exact scan_of_token rfl
    · intro before stack rest
      simp [run, step]
  | @cons v d vs ds first _ ih =>
    obtain ⟨ts, here⟩ := first
    obtain ⟨us, scanned, read⟩ := ih
    refine ⟨.comma :: (ts ++ us), ?_, ?_⟩
    · intro rest
      rw [printItems, List.cons_append, List.append_assoc,
        scan_of_token rfl, here.scanned _ stops_printItems, scanned]
      simp [Function.comp_def]
    · intro before stack rest
      rw [List.cons_append, List.append_assoc]
      show run (.value (.array before :: stack)) (ts ++ (us ++ rest)) = _
      rw [here.read]
      show run (.afterItem (d :: before) stack) (us ++ rest) = _
      rw [read]
      simp

theorem printed_arr (all : List.Forall₂ Printed vs ds) : Printed (.arr vs) (.array ds) := by
  cases all with
  | nil =>
    refine ⟨[.openArray, .closeArray], ?_, ?_, ?_⟩
    · intro rest _
      rw [print, List.cons_append, List.singleton_append,
        scan_of_token rfl, scan_of_token rfl]
      simp [Function.comp_def]
    · intro stack rest
      rfl
    · intro stack rest
      rfl
  | @cons v d vs ds first later =>
    obtain ⟨ts, here⟩ := first
    obtain ⟨us, scanned, read⟩ := items_spelled later
    refine ⟨.openArray :: (ts ++ us), ?_, ?_, ?_⟩
    · intro rest _
      rw [print, List.cons_append, List.append_assoc,
        scan_of_token rfl, here.scanned _ stops_printItems, scanned]
      simp [Function.comp_def]
    · intro stack rest
      rw [List.cons_append, List.append_assoc]
      show run (.firstItem stack) (ts ++ (us ++ rest)) = _
      rw [here.leading, here.read]
      show run (.afterItem [d] stack) (us ++ rest) = _
      rw [read]
      rfl
    · intro stack rest
      rfl

def PrintedField (field : String × Json) (member : Option String × Document) : Prop :=
  member.1 = some field.1 ∧ Printed field.2 member.2

/-- The tokens of a field and what they do to an object that waits for a key. -/
theorem field_spelled {field : String × Json} {member : Option String × Document}
    (printed : PrintedField field member) :
    ∃ ts, (∀ rest, Stops rest →
        scan .idle (printString field.1 ++ ':' :: (field.2.print ++ rest)) =
          (scan .idle rest).map (ts ++ ·)) ∧
      (∀ before stack rest, run (.key before stack) (ts ++ rest) =
        run (.afterMember (member :: before) stack) rest) ∧
      ∀ stack rest, run (.firstKey stack) (ts ++ rest) = run (.key [] stack) (ts ++ rest) := by
  obtain ⟨key, v⟩ := field
  obtain ⟨key', d⟩ := member
  obtain ⟨rfl, ts, here⟩ := printed
  refine ⟨.string (key.toList.map unitOf) :: .colon :: ts, ?_, ?_, ?_⟩
  · intro rest stops
    rw [scan_printString, scan_of_token rfl, here.scanned _ stops]
    simp [Function.comp_def]
  · intro before stack rest
    show run (.colon before (stringOf _) stack) (.colon :: (ts ++ rest)) = _
    rw [stringOf_unitOf]
    show run (.value (.member before (some key) :: stack)) (ts ++ rest) = _
    rw [here.read]
    rfl
  · intro stack rest
    rfl

/-- The fields of an object that follow its first one, up to its end. -/
theorem fields_spelled {fields : Fields} {members : List (Option String × Document)}
    (all : List.Forall₂ PrintedField fields members) :
    ∃ ts, (∀ rest, scan .idle (printFields fields ++ rest) = (scan .idle rest).map (ts ++ ·)) ∧
      ∀ before stack rest, run (.afterMember before stack) (ts ++ rest) =
        run (close (.object (before.reverse ++ members)) stack) rest := by
  induction all with
  | nil =>
    refine ⟨[.closeObject], ?_, ?_⟩
    · intro rest
      exact scan_of_token rfl
    · intro before stack rest
      simp [run, step]
  | @cons field member fields members first _ ih =>
    obtain ⟨ts, scannedHere, readHere, _⟩ := field_spelled first
    obtain ⟨us, scanned, read⟩ := ih
    refine ⟨.comma :: (ts ++ us), ?_, ?_⟩
    · intro rest
      rw [printFields, List.cons_append, List.append_assoc, List.cons_append, List.append_assoc,
        scan_of_token rfl, scannedHere _ stops_printFields, scanned]
      simp [Function.comp_def]
    · intro before stack rest
      rw [List.cons_append, List.append_assoc]
      show run (.key before stack) (ts ++ (us ++ rest)) = _
      rw [readHere, read]
      simp

theorem printed_obj {fields : Fields} {members : List (Option String × Document)}
    (all : List.Forall₂ PrintedField fields members) : Printed (.obj fields) (.object members) := by
  cases all with
  | nil =>
    refine ⟨[.openObject, .closeObject], ?_, ?_, ?_⟩
    · intro rest _
      rw [print, List.cons_append, List.singleton_append,
        scan_of_token rfl, scan_of_token rfl]
      simp [Function.comp_def]
    · intro stack rest
      rfl
    · intro stack rest
      rfl
  | @cons field member fields members first later =>
    obtain ⟨ts, scannedHere, readHere, leading⟩ := field_spelled first
    obtain ⟨us, scanned, read⟩ := fields_spelled later
    refine ⟨.openObject :: (ts ++ us), ?_, ?_, ?_⟩
    · intro rest _
      rw [print, List.cons_append, List.append_assoc, List.cons_append, List.append_assoc,
        scan_of_token rfl, scannedHere _ stops_printFields, scanned]
      simp [Function.comp_def]
    · intro stack rest
      rw [List.cons_append, List.append_assoc]
      show run (.firstKey stack) (ts ++ (us ++ rest)) = _
      rw [leading, readHere, read]
      rfl
    · intro stack rest
      rfl

/-- The text of a value is read as its document. -/
theorem parse?_compact (printed : Printed v d) : parse? v.compact = some d := by
  obtain ⟨ts, here⟩ := printed
  have scanned : tokens? v.print = some ts := by
    have whole := here.scanned [] stops_nil
    rw [List.append_nil] at whole
    rw [tokens?, whole]
    simp [scan, ScanMode.finish]
  have read : run (.value []) ts = some (.complete d) := by
    have whole := here.read [] []
    rwa [List.append_nil] at whole
  simp [parse?, ofChars?, compact, scanned, read]

end Document
end MultiCluster.Json
