import MultiCluster.Json.Printer
import MultiCluster.Proofs.PairMasking

/-! Masking a log line that is a JSON object with one credential. The value of the pair is read as
text between two quotation marks and nothing is known of escapes, so the mark of an escaped
quotation mark ends the value. A value without quotation marks is replaced whole; of any other one
the rest is kept like a log of its own. -/
namespace MultiCluster.Gather

open Pattern

variable {o : Options} {cs before after run : List Char} {c : Char} {key : String} {r : Rule}

section Escapes

theorem escapeChar_of_isKeyChar (member : isKeyChar c = true) : Json.escapeChar c = [c] := by
  have apart (d : Char) (refused : isKeyChar d = false) : c ≠ d := ne_of_refused member refused
  have printed : ¬ c.toNat < 0x20 := by
    intro control
    have refused : ∀ n < 0x20, isKeyChar (Char.ofNat n) = false := by decide
    have refused := refused c.toNat control
    rw [Char.ofNat_toNat, member] at refused
    cases refused
  simp [Json.escapeChar, apart '"' (by decide), apart '\\' (by decide), apart '\n' (by decide),
    apart '\r' (by decide), apart '\t' (by decide), apart '\x08' (by decide),
    apart '\x0c' (by decide), printed]

theorem escapes_of_isKeyChar (keys : ∀ c ∈ cs, isKeyChar c = true) :
    cs.flatMap Json.escapeChar = cs := by
  induction cs with
  | nil => rfl
  | cons c cs ih =>
    obtain ⟨first, others⟩ := List.forall_mem_cons.mp keys
    rw [List.flatMap_cons, escapeChar_of_isKeyChar first, ih others, List.singleton_append]

theorem hexDigit_ne_quote (n : Nat) : Text.hexDigit (n % 16) ≠ '"' := by
  have digits : ∀ d < 16, Text.hexDigit d ≠ '"' := by decide
  exact digits _ (Nat.mod_lt n (by decide))

theorem quote_not_mem_escapeChar (other : c ≠ '"') : '"' ∉ Json.escapeChar c := by
  unfold Json.escapeChar
  simp only [beq_iff_eq, if_neg other]
  -- the six other characters with an escape of their own
  iterate 6
    split
    · decide
  split
  · simp [Json.hex4, (hexDigit_ne_quote _).symm]
  · simpa using other.symm

theorem quote_not_mem_escapes (plain : '"' ∉ cs) : '"' ∉ cs.flatMap Json.escapeChar := by
  intro member
  obtain ⟨c, inside, escaped⟩ := List.mem_flatMap.mp member
  refine quote_not_mem_escapeChar ?_ escaped
  rintro rfl
  exact plain inside

end Escapes

section Rules

/-- A quoted value is taken up to the next quotation mark. -/
theorem taken_of_quoted (plain : '"' ∉ run) :
    (pairRule.value.rests ('"' :: run ++ ['"'] ++ after)).head? = Option.some after := by
  have inside : ∀ c ∈ run, (c != '"') = true := by
    intro c member
    rw [bne_iff_ne]
    rintro rfl
    exact plain member
  have first : (runs (· != '"') [] (run ++ '"' :: after)).head? = Option.some ('"' :: after) := by
    rw [head?_runs, dropWhile_run run ('"' :: after) inside (by simp)]
  obtain ⟨shorter, longest⟩ := List.head?_eq_some_iff.mp first
  simp [pairRule, choice, quotedBy, Pattern.sequence, Pattern.char, rests, longest]

/-- A stretch without blanks that does not end in a letter of the word is copied. -/
theorem mask_bearers_append (visible : ∀ c ∈ before, Text.isBlank c = false)
    (ends : ∀ c ∈ before.getLast?, c.toLower ∉ "bearer".toList) :
    bearerRule.mask 0 false (before ++ cs) = before ++ bearerRule.mask 0 false cs := by
  refine mask_append bearerRule_steady fun front back split filled => ?_
  cases matched : bearerRule.match? (back ++ cs) with
  | none => rfl
  | some found =>
    exfalso
    obtain ⟨word, blanks, same, named, apart, blank⟩ :=
      mem_bearerMark.mp (match?_eq_some matched).1
    have last : back.getLast filled ∈ before.getLast? := by
      rw [split, List.getLast?_append_of_ne_nil _ filled, List.getLast?_eq_some_getLast filled]
      rfl
    have whole (covered : back <+: word) : False := by
      refine ends _ last ?_
      rw [← named]
      exact List.mem_map_of_mem (covered.subset (List.getLast_mem filled))
    rcases List.append_eq_append_iff.mp same with ⟨later, rfl, -⟩ | ⟨later, rfl, begins⟩
    · exact whole (List.prefix_append back later)
    · cases later with
      | nil => exact whole (by simp)
      | cons c later =>
        obtain ⟨b, blanks, rfl⟩ := List.exists_cons_of_ne_nil apart
        obtain ⟨rfl, -⟩ := List.cons.inj begins
        have refused := visible b (by simp [split])
        rw [blank b List.mem_cons_self] at refused
        cases refused

/-- What is left of a text is as long as the text or as the mark for a value. -/
theorem length_le_mask (steady : r.Steady) (cs : List Char) :
    min cs.length redacted.toList.length ≤ (r.mask 0 false cs).length := by
  rw [← outputs_pieces steady (by simp)]
  have splits : r.Splits cs (r.pieces 0 cs) := splits_pieces steady
  generalize r.pieces 0 cs = ps at splits
  induction splits with
  | done => simp
  | passed _ _ ih =>
    simp [Piece.output] at ih ⊢
    omega
  | replaced _ _ _ =>
    simp [Piece.output]
    omega

end Rules

section Lines

def lineOf (key value : String) : String := (Json.obj [(key, .str value)]).compact

def maskedFront (key : String) : List Char :=
  ['\x7b', '"'] ++ (key.toList ++ (['"', ':'] ++ redacted.toList))

theorem toList_lineOf (keys : ∀ c ∈ key.toList, isKeyChar c = true) (value : String) :
    (lineOf key value).toList = ['\x7b', '"'] ++ (key.toList ++ (['"', ':'] ++
      ('"' :: (value.toList.flatMap Json.escapeChar ++ ['"', '\x7d'])))) := by
  simp [lineOf, Json.compact, Json.print, Json.printFields, Json.printString,
    escapes_of_isKeyChar keys]

theorem mask_bearers_line (keys : ∀ c ∈ key.toList, isKeyChar c = true) :
    bearerRule.mask 0 false (maskedFront key ++ cs) =
      maskedFront key ++ bearerRule.mask 0 false cs := by
  have ends : (maskedFront key).getLast? = redacted.toList.getLast? := by
    rw [maskedFront, List.getLast?_append_of_ne_nil _ (by simp),
      List.getLast?_append_of_ne_nil _ (by simp), List.getLast?_append_of_ne_nil _ (by decide)]
  have visible {cs : List Char} (all : cs.all (!Text.isBlank ·) = true) :
      ∀ c ∈ cs, Text.isBlank c = false := by simpa using all
  refine mask_bearers_append ?_ ?_
  · simp only [maskedFront, List.forall_mem_append]
    exact ⟨visible (by decide), fun c member => not_isBlank_of_isKeyChar (keys c member),
      visible (by decide), visible (by decide)⟩
  · rw [ends]
    intro c last
    obtain rfl : 'D' = c := by simpa [redacted] using last
    decide

/-- The value is replaced up to its first quotation mark, and the rest is a log of its own. -/
theorem redactLog_lineOf (keys : ∀ c ∈ key.toList, isKeyChar c = true)
    (named : NamesCredential key.toList) {value : String} (plain : '"' ∉ run)
    (split : value.toList.flatMap Json.escapeChar ++ ['"', '\x7d'] = run ++ ['"'] ++ after) :
    redactLog (lineOf key value) = String.ofList (maskedFront key ++
      bearerRule.mask 0 false (pairRule.mask 0 false after)) := by
  have quiet : ¬ NamesCredential ['\x7b', '"'] := by decide
  have separated : Separation ['"', ':'] := by
    refine Separation.around ['"'] [] [] ':' ?_ ?_ ?_ ?_
    all_goals simp
  have taken : (pairRule.value.rests ('"' :: run ++ ['"'] ++ after)).head? = Option.some after :=
    taken_of_quoted plain
  have masked := mask_pair quiet keys named separated taken
  have line : (lineOf key value).toList = ['\x7b', '"'] ++ (key.toList ++ (['"', ':'] ++
      ('"' :: run ++ ['"'] ++ after))) := by
    rw [toList_lineOf keys, split]
    simp
  have front : ['\x7b', '"'] ++ (key.toList ++ (['"', ':'] ++ (redacted.toList ++
      pairRule.mask 0 false after))) = maskedFront key ++ pairRule.mask 0 false after := by
    simp [maskedFront]
  rw [redactLog, line, masked, front, mask_bearers_line keys]

theorem redactLog_unquoted (keys : ∀ c ∈ key.toList, isKeyChar c = true)
    (named : NamesCredential key.toList) {value : String} (plain : '"' ∉ value.toList) :
    redactLog (lineOf key value) = String.ofList (maskedFront key ++ ['\x7d']) := by
  have closed : bearerRule.mask 0 false (pairRule.mask 0 false ['\x7d']) = ['\x7d'] := by decide
  have split : value.toList.flatMap Json.escapeChar ++ ['"', '\x7d'] =
      value.toList.flatMap Json.escapeChar ++ ['"'] ++ ['\x7d'] := by simp
  rw [redactLog_lineOf keys named (quote_not_mem_escapes plain) split, closed]

theorem redactLog_quoted (keys : ∀ c ∈ key.toList, isKeyChar c = true)
    (named : NamesCredential key.toList) {front back : String} (plain : '"' ∉ front.toList) :
    redactLog (lineOf key (front ++ "\"" ++ back)) = String.ofList (maskedFront key) ++
      redactLog (String.ofList (back.toList.flatMap Json.escapeChar ++ ['"', '\x7d'])) := by
  have quote : Json.escapeChar '"' = ['\\', '"'] := rfl
  have unclosed : '"' ∉ front.toList.flatMap Json.escapeChar ++ ['\\'] := by
    rw [List.mem_append, not_or]
    exact ⟨quote_not_mem_escapes plain, by decide⟩
  have split : (front ++ "\"" ++ back).toList.flatMap Json.escapeChar ++ ['"', '\x7d'] =
      front.toList.flatMap Json.escapeChar ++ ['\\'] ++ ['"'] ++
        (back.toList.flatMap Json.escapeChar ++ ['"', '\x7d']) := by
    simp [quote]
  rw [redactLog_lineOf keys named unclosed split, String.ofList_append, redactLog,
    String.toList_ofList]

/-- With masking on, a line does not depend on its value if there is no quotation mark in the value,
and only then. What stands behind the first one is kept as if it were a log of its own. -/
theorem keptLog_lineOf (masking : o.includeSensitiveData = false)
    (keys : ∀ c ∈ key.toList, isKeyChar c = true) (named : NamesCredential key.toList) :
    (∀ value, keptLog o (lineOf key value) = "\x7b\"" ++ key ++ "\":" ++ redacted ++ "\x7d" ↔
      '"' ∉ value.toList) ∧
    ∀ front back : String, '"' ∉ front.toList → keptLog o (lineOf key (front ++ "\"" ++ back)) =
      "\x7b\"" ++ key ++ "\":" ++ redacted ++
        keptLog o (String.ofList (back.toList.flatMap Json.escapeChar ++ ['"', '\x7d'])) := by
  have masked (text : String) : keptLog o text = redactLog text := if_neg (by simp [masking])
  have marked : "\x7b\"" ++ key ++ "\":" ++ redacted = String.ofList (maskedFront key) := by
    refine String.toList_inj.mp ?_
    simp [maskedFront]
  have behind {front : String} (back : String) (plain : '"' ∉ front.toList) :
      redactLog (lineOf key (front ++ "\"" ++ back)) = String.ofList (maskedFront key) ++
        redactLog (String.ofList (back.toList.flatMap Json.escapeChar ++ ['"', '\x7d'])) :=
    redactLog_quoted keys named plain
  rw [marked]
  refine ⟨fun value => ⟨fun whole quoted => ?_, fun plain => ?_⟩, fun front back plain => ?_⟩
  · obtain ⟨front, back, split, plain⟩ := List.eq_append_cons_of_mem quoted
    obtain rfl : value = String.ofList front ++ "\"" ++ String.ofList back := by
      refine String.toList_inj.mp ?_
      simp [split]
    rw [masked, behind _ (by simpa using plain)] at whole
    -- The rest of the line has two characters at least, and masking leaves as many.
    have rests := congrArg (List.length ∘ String.toList) whole
    simp only [Function.comp_apply, String.toList_append, List.length_append, redactLog,
      String.toList_ofList] at rests
    have first := length_le_mask pairRule_steady (back.flatMap Json.escapeChar ++ ['"', '\x7d'])
    have second := length_le_mask bearerRule_steady
      (pairRule.mask 0 false (back.flatMap Json.escapeChar ++ ['"', '\x7d']))
    simp [redacted] at rests first second
    omega
  · rw [masked, redactLog_unquoted keys named plain, String.ofList_append]
  · rw [masked, masked, behind back plain]

theorem keptLog_lineOf_password :
    let o : Options := ⟨[], [], "", false⟩
    (o.includeSensitiveData = false ∧ (∀ c ∈ "db_Password".toList, isKeyChar c = true) ∧
      NamesCredential "db_Password".toList ∧ '"' ∉ "a\\b, c:\n".toList) ∧
    keptLog o (lineOf "db_Password" "a\\b, c:\n") =
      "\x7b\"" ++ "db_Password" ++ "\":" ++ redacted ++ "\x7d" :=
  have keys : ∀ c ∈ "db_Password".toList, isKeyChar c = true := List.all_eq_true.mp (by decide)
  have named : NamesCredential "db_Password".toList := by decide
  have plain : '"' ∉ "a\\b, c:\n".toList := by decide
  ⟨⟨rfl, keys, named, plain⟩, ((keptLog_lineOf rfl keys named).1 _).mpr plain⟩

/-- Two passwords are told apart by what is kept of them. -/
theorem keptLog_tells_passwords :
    let o : Options := ⟨[], [], "", false⟩
    lineOf "password" "hunter2" = "\x7b\"password\":\"hunter2\"\x7d" ∧
      keptLog o (lineOf "password" "hunter2") = "\x7b\"password\":REDACTED\x7d" ∧
      lineOf "password" "hunter2\"rest" = "\x7b\"password\":\"hunter2\\\"rest\"\x7d" ∧
      keptLog o (lineOf "password" "hunter2\"rest") = "\x7b\"password\":REDACTEDrest\"\x7d" := by
  refine ⟨by decide +kernel, by decide +kernel, by decide +kernel, by decide +kernel⟩

end Lines

end MultiCluster.Gather
