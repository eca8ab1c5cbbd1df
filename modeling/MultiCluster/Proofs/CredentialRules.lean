import MultiCluster.Proofs.Replacement

/-! The two rules for credentials are steady. The mark of a pair is a key and a separator that has
no characters of a key in it, so what begins in the key ends alike and nothing begins in the
separator; nothing begins inside the mark of a bearer token, since its word begins with a letter
that it does not hold again. -/
namespace MultiCluster.Gather

open Pattern

variable {c letter : Char} {cs rest mark value before after word blanks run : List Char}
  {accepts : Char → Bool}

/-- A run is dropped whole if what follows does not continue it. -/
theorem dropWhile_run (run rest : List Char) (inside : ∀ c ∈ run, accepts c = true)
    (stops : ∀ c ∈ rest.head?, accepts c = false) : (run ++ rest).dropWhile accepts = rest := by
  rw [List.dropWhile_append_of_pos inside]
  cases rest with
  | nil => rfl
  | cons c later => rw [List.dropWhile_cons_of_neg (by simp [stops c rfl])]

section Characters

/-- A character of a class is none that the class leaves out. -/
theorem ne_of_refused {d : Char} (member : accepts c = true) (refused : accepts d = false) :
    c ≠ d := by
  rintro rfl
  rw [member] at refused
  cases refused

def blankCodes : List Nat := [9, 10, 11, 12, 13, 0x20, 0x85, 0xA0, 0x1680, 0x2000, 0x2001, 0x2002,
  0x2003, 0x2004, 0x2005, 0x2006, 0x2007, 0x2008, 0x2009, 0x200A, 0x2028, 0x2029, 0x202F, 0x205F,
  0x3000]

theorem mem_blankCodes (blank : Text.isBlank c = true) : c.toNat ∈ blankCodes := by
  simp only [Text.isBlank, Bool.or_eq_true, Bool.and_eq_true, beq_iff_eq,
    decide_eq_true_eq] at blank
  simp only [blankCodes, List.mem_cons, List.not_mem_nil, or_false]
  omega

/-- What holds of no blank is decided blank by blank. -/
theorem of_isBlank {p : Char → Bool} (each : ∀ n ∈ blankCodes, p (Char.ofNat n) = true)
    (blank : Text.isBlank c = true) : p c = true := by
  have this := each _ (mem_blankCodes blank)
  rwa [Char.ofNat_toNat] at this

theorem not_isKeyChar_of_isBlank (blank : Text.isBlank c = true) : isKeyChar c = false := by
  have refused : (!isKeyChar c) = true :=
    of_isBlank (p := fun c => !isKeyChar c) (by decide +kernel) blank
  simpa using refused

theorem not_isBlank_of_isKeyChar (key : isKeyChar c = true) : Text.isBlank c = false := by
  by_contra blank
  have refused := not_isKeyChar_of_isBlank (by simpa using blank)
  rw [key] at refused
  cases refused

theorem not_isTokenChar_of_isBlank (blank : Text.isBlank c = true) : isTokenChar c = false := by
  have refused : (!isTokenChar c) = true :=
    of_isBlank (p := fun c => !isTokenChar c) (by decide +kernel) blank
  simpa using refused

theorem toLower_of_isBlank (blank : Text.isBlank c = true) : c.toLower = c := by
  have same : (c.toLower == c) = true :=
    of_isBlank (p := fun c => c.toLower == c) (by decide +kernel) blank
  simpa using same

theorem isAlphanum_of_toLower (lower : letter.isLower = true) (same : c.toLower = letter) :
    c.isAlphanum = true := by
  by_cases upper : c.isUpper = true
  · show (c.isUpper || c.isLower || c.isDigit) = true
    simp [upper]
  · have itself : c.toLower = c := dif_neg fun range => upper (decide_eq_true range)
    rw [itself] at same
    show (c.isUpper || c.isLower || c.isDigit) = true
    simp [same, lower]

theorem isKeyChar_of_isAlphanum (alphanumeric : c.isAlphanum = true) : isKeyChar c = true := by
  have ascii : c.toNat < 128 := by
    change (decide (c.val ≥ 'A'.val ∧ c.val ≤ 'Z'.val) ||
      (decide (c.val ≥ 'a'.val) && decide (c.val ≤ 'z'.val)) ||
      (decide (c.val ≥ '0'.val) && decide (c.val ≤ '9'.val))) = true at alphanumeric
    simp only [Bool.or_eq_true, Bool.and_eq_true, decide_eq_true_eq, UInt32.le_iff_toNat_le,
      ge_iff_le, Char.reduceVal, UInt32.reduceToNat] at alphanumeric
    have code : c.toNat = c.val.toNat := rfl
    omega
  simp [isKeyChar, Text.isWord, ascii, alphanumeric]

theorem isKeyChar_of_isLetter (lower : letter.isLower = true)
    (accepted : isLetter letter c = true) : isKeyChar c = true := by
  simp only [isLetter, Bool.or_eq_true, Bool.and_eq_true, beq_iff_eq] at accepted
  rcases accepted with (same | ⟨-, rfl⟩) | ⟨-, rfl⟩
  · exact isKeyChar_of_isAlphanum (isAlphanum_of_toLower lower same)
  · decide +kernel
  · decide +kernel

/-- A class without blanks and the marks that end a bare value is part of it. -/
theorem isBareChar_of {p : Char → Bool} (visible : ∀ c, Text.isBlank c = true → p c = false)
    (others : [',', ';', '"', '\'', '\x7d', ']'].all (!p ·) = true) (member : p c = true) :
    isBareChar c = true := by
  by_contra refused
  simp only [isBareChar, Bool.not_eq_true', Bool.not_eq_false] at refused
  rcases Bool.or_eq_true_iff.mp refused with blank | stop
  · rw [visible c blank] at member
    cases member
  · have refused := List.all_eq_true.mp others c (by simpa using stop)
    rw [member] at refused
    cases refused

theorem isBareChar_of_isTokenChar (token : isTokenChar c = true) : isBareChar c = true :=
  isBareChar_of (fun _ => not_isTokenChar_of_isBlank) (by decide) token

theorem isBareChar_of_isKeyChar (key : isKeyChar c = true) : isBareChar c = true :=
  isBareChar_of (fun _ => not_isKeyChar_of_isBlank) (by decide) key

end Characters

section Pairs

def isQuote (c : Char) : Bool := c == '"' || c == '\''

def isSeparator (c : Char) : Bool := c == '=' || c == ':'

def pairKey : Pattern := .sequence [.many isKeyChar, credentialWord, .many isKeyChar]

def pairSeparator : Pattern := .sequence [
  .optional (.one isQuote), .many Text.isBlank, .one isSeparator, .many Text.isBlank]

theorem mem_pairMark : rest ∈ pairRule.mark.rests cs ↔
    ∃ middle ∈ pairKey.rests cs, rest ∈ pairSeparator.rests middle := by
  simp only [pairRule, pairKey, pairSeparator, Pattern.sequence, mem_rests_append]
  constructor
  · rintro ⟨m₁, h₁, m₂, h₂, m₃, h₃, behind⟩
    exact ⟨m₃, ⟨m₁, h₁, m₂, h₂, h₃⟩, behind⟩
  · rintro ⟨m₃, ⟨m₁, h₁, m₂, h₂, h₃⟩, behind⟩
    exact ⟨m₁, h₁, m₂, h₂, m₃, h₃, behind⟩

theorem over_credentialWord : credentialWord.Over (isKeyChar · = true) := by
  have words {letters : List Char} (lower : letters.all Char.isLower = true) :
      (word letters).Over (isKeyChar · = true) :=
    over_word fun l member _ => isKeyChar_of_isLetter (List.all_eq_true.mp lower l member)
  refine over_choice ?_
  simp only [List.forall_mem_cons, List.not_mem_nil, false_implies, implies_true, and_true]
  refine ⟨words (by decide), words (by decide), words (by decide), words (by decide),
    words (by decide), words (by decide), over_sequence ?_⟩
  simp only [List.forall_mem_cons, List.not_mem_nil, false_implies, implies_true, and_true]
  have underscore : (Pattern.char '_').optional.Over (isKeyChar · = true) := by
    intro c same
    obtain rfl : c = '_' := by simpa using same
    decide
  exact ⟨words (by decide), underscore, words (by decide)⟩

theorem over_pairKey : pairKey.Over (isKeyChar · = true) := by
  refine over_sequence ?_
  simp only [List.forall_mem_cons, List.not_mem_nil, false_implies, implies_true, and_true]
  exact ⟨fun _ => id, over_credentialWord, fun _ => id⟩

theorem over_pairSeparator : pairSeparator.Over (isKeyChar · = false) := by
  have quotes (c : Char) (quote : isQuote c = true) : isKeyChar c = false := by
    rcases (by simpa [isQuote] using quote : c = '"' ∨ c = '\'') with rfl | rfl <;> decide
  have signs (c : Char) (sign : isSeparator c = true) : isKeyChar c = false := by
    rcases (by simpa [isSeparator] using sign : c = '=' ∨ c = ':') with rfl | rfl <;> decide
  refine over_sequence ?_
  simp only [List.forall_mem_cons, List.not_mem_nil, false_implies, implies_true, and_true]
  exact ⟨quotes, fun _ => not_isKeyChar_of_isBlank, signs, fun _ => not_isKeyChar_of_isBlank⟩

/-- A mark is a key and a separator, and the key is all that comes before the separator. -/
theorem split_of_mem_pairMark (member : rest ∈ pairRule.mark.rests cs) :
    ∃ key separator, cs = key ++ (separator ++ rest) ∧ key ≠ [] ∧ separator ≠ [] ∧
      (∀ c ∈ key, isKeyChar c = true) ∧ (∀ c ∈ separator, isKeyChar c = false) ∧
      rest ∈ pairSeparator.rests (separator ++ rest) := by
  obtain ⟨middle, first, second⟩ := mem_pairMark.mp member
  obtain ⟨key, rfl, keys⟩ := run_of_mem_rests over_pairKey first
  obtain ⟨separator, rfl, others⟩ := run_of_mem_rests over_pairSeparator second
  have begins := length_lt_of_mem_rests (by decide) first
  have ends := length_lt_of_mem_rests (by decide) second
  refine ⟨key, separator, rfl, ?_, ?_, keys, others, second⟩
  · rintro rfl
    simp at begins
  · rintro rfl
    simp at ends

theorem dropWhile_of_split {key separator : List Char} (rest : List Char)
    (keys : ∀ c ∈ key, isKeyChar c = true)
    (filled : separator ≠ []) (others : ∀ c ∈ separator, isKeyChar c = false) :
    (key ++ (separator ++ rest)).dropWhile isKeyChar = separator ++ rest := by
  refine dropWhile_run _ _ keys fun c head => ?_
  rw [List.head?_append_of_ne_nil separator filled] at head
  exact others c (List.mem_of_mem_head? head)

def afterSeparator (cs : List Char) : List Char :=
  (((cs.dropWhile isQuote).dropWhile Text.isBlank).drop 1).dropWhile Text.isBlank

theorem not_isQuote_of_isBlank (blank : Text.isBlank c = true) : isQuote c = false := by
  have refused : (!isQuote c) = true := of_isBlank (p := fun c => !isQuote c) (by decide) blank
  simpa using refused

theorem eq_afterSeparator (member : rest ∈ pairSeparator.rests cs)
    (visible : ∀ c ∈ rest.head?, Text.isBlank c = false) : rest = afterSeparator cs := by
  simp only [pairSeparator, Pattern.sequence, mem_rests_append, mem_rests_optional, mem_rests_one,
    mem_rests_many] at member
  obtain ⟨behindQuote, quote, _, ⟨blanks, rfl, blank⟩, _, ⟨sign, rfl, isSign⟩, blanks', rfl,
    blank'⟩ := member
  have plain : Text.isBlank sign = false ∧ isQuote sign = false := by
    rcases (by simpa [isSeparator] using isSign : sign = '=' ∨ sign = ':') with rfl | rfl <;> decide
  have unquoted : cs.dropWhile isQuote = blanks ++ sign :: (blanks' ++ rest) := by
    have stops : ∀ c ∈ (blanks ++ sign :: (blanks' ++ rest)).head?, isQuote c = false := by
      intro c head
      cases blanks with
      | nil =>
        obtain rfl : sign = c := by simpa using head
        exact plain.2
      | cons d _ =>
        obtain rfl : d = c := by simpa using head
        exact not_isQuote_of_isBlank (blank d List.mem_cons_self)
    rcases quote with ⟨q, rfl, isQuote⟩ | same
    · exact dropWhile_run [q] _ (by simpa using isQuote) stops
    · rw [← same]
      exact dropWhile_run [] _ (by simp) stops
  rw [afterSeparator, unquoted, dropWhile_run _ _ blank (by simpa using plain.1), List.drop_one,
    List.tail_cons, dropWhile_run _ _ blank' visible]

theorem rests_quotedBy_of_ne {quote : Char} (other : c ≠ quote) :
    (quotedBy quote).rests (c :: cs) = [] := by
  simp [quotedBy, Pattern.sequence, Pattern.char, Pattern.rests, other]

theorem visible_of_value (values : pairRule.value.rests cs ≠ []) :
    ∀ c ∈ cs.head?, Text.isBlank c = false := by
  intro c head
  obtain ⟨after, member⟩ := List.exists_mem_of_ne_nil _ values
  obtain ⟨later, rfl⟩ : ∃ later, cs = c :: later := List.head?_eq_some_iff.mp head
  have opened {quote : Char} (matched : after ∈ (quotedBy quote).rests (c :: later)) :
      c = quote := by
    simp only [quotedBy, Pattern.sequence, Pattern.char, mem_rests_append, mem_rests_one] at matched
    obtain ⟨_, ⟨_, same, isQuote⟩, _⟩ := matched
    obtain ⟨rfl, -⟩ := List.cons.inj same
    simpa using isQuote
  simp only [pairRule, choice, mem_rests_either] at member
  rcases member with matched | matched | matched
  · rw [opened matched]
    decide
  · rw [opened matched]
    decide
  · obtain ⟨_, first, _⟩ := mem_rests_append.mp matched
    obtain ⟨_, same, bare⟩ := mem_rests_one.mp first
    obtain ⟨rfl, -⟩ := List.cons.inj same
    by_contra blank
    simp [isBareChar, blank] at bare

theorem pairRule_leads (key : isKeyChar c = true) (missed : pairRule.match? (c :: cs) = none) :
    pairRule.match? cs = none := by
  rw [match?_eq_none_iff] at missed ⊢
  intro rest member
  refine missed rest ?_
  obtain ⟨middle, first, second⟩ := mem_rests_append.mp member
  obtain ⟨run, rfl, keys⟩ := mem_rests_many.mp first
  have more : middle ∈ (many isKeyChar).rests (c :: (run ++ middle)) :=
    mem_rests_many.mpr ⟨c :: run, rfl, List.forall_mem_cons.mpr ⟨key, keys⟩⟩
  exact mem_rests_append.mpr ⟨middle, more, second⟩

/-- A match ends where the first separator behind its key does. -/
theorem rest_of_pairMatch (matched : pairRule.match? cs = some (rest, after)) :
    ∃ key separator, cs = key ++ (separator ++ rest) ∧ key ≠ [] ∧ separator ≠ [] ∧
      (∀ c ∈ key, isKeyChar c = true) ∧ (∀ c ∈ separator, isKeyChar c = false) ∧
      rest = afterSeparator (separator ++ rest) := by
  obtain ⟨member, head⟩ := match?_eq_some matched
  obtain ⟨key, separator, split, begins, filled, keys, others, ends⟩ := split_of_mem_pairMark member
  have values : pairRule.value.rests rest ≠ [] := fun none => by simp [none] at head
  exact ⟨key, separator, split, begins, filled, keys, others,
    eq_afterSeparator ends (visible_of_value values)⟩

theorem pairRule_within {inner rest' after' : List Char}
    (matched : pairRule.match? (mark ++ rest) = some (rest, after)) (suffix : inner <:+ mark)
    (begins : inner ≠ []) (other : pairRule.match? (inner ++ rest) = some (rest', after')) :
    (rest', after') = (rest, after) := by
  obtain ⟨key, separator, split, -, filled, keys, others, ends⟩ := rest_of_pairMatch matched
  obtain ⟨key', separator', split', begins', filled', keys', others', ends'⟩ :=
    rest_of_pairMatch other
  have whole : mark = key ++ separator := by
    rw [← List.append_assoc] at split
    exact List.append_cancel_right split
  obtain ⟨front, same⟩ := suffix
  have behind : separator' ++ rest' = separator ++ rest := by
    rcases List.append_eq_append_iff.mp (same.trans whole) with ⟨keyEnd, rfl, rfl⟩ | ⟨_, -, rfl⟩
    · have first := dropWhile_of_split rest
        (fun c member => keys c (List.mem_append_right _ member)) filled others
      have second := dropWhile_of_split rest' keys' filled' others'
      rw [← split', List.append_assoc, first] at second
      exact second.symm
    · -- A match would begin with a character of the separator.
      obtain ⟨c, later, rfl⟩ := List.exists_cons_of_ne_nil begins
      obtain ⟨d, later', rfl⟩ := List.exists_cons_of_ne_nil begins'
      obtain ⟨rfl, -⟩ := List.cons.inj split'
      have isKey := keys' c List.mem_cons_self
      rw [others c (by simp)] at isKey
      cases isKey
  obtain rfl : rest' = rest := by rw [ends', behind, ← ends]
  have head := (match?_eq_some matched).2
  rw [(match?_eq_some other).2] at head
  rw [Option.some.inj head]

theorem pairRule_steady : pairRule.Steady where
  marks := by decide
  values := by decide
  leads := pairRule_leads
  within matched suffix begins other := pairRule_within matched suffix begins other

end Pairs

section Bearers

theorem mem_bearerMark : rest ∈ bearerRule.mark.rests cs ↔
    ∃ word blanks, cs = word ++ (blanks ++ rest) ∧ word.map Char.toLower = "bearer".toList ∧
      blanks ≠ [] ∧ ∀ c ∈ blanks, Text.isBlank c = true := by
  have letters (run : List Char) : List.Forall₂ (isLetter · · = true) "bearer".toList run ↔
      run.map Char.toLower = "bearer".toList := forall₂_isLetter_iff (by simp)
  simp only [bearerRule, Pattern.sequence, mem_rests_append, mem_rests_some, mem_rests_word]
  constructor
  · rintro ⟨_, ⟨word, rfl, named⟩, blanks, rfl, apart, blank⟩
    exact ⟨word, blanks, rfl, (letters word).mp named, apart, blank⟩
  · rintro ⟨word, blanks, rfl, named, apart, blank⟩
    exact ⟨_, ⟨word, rfl, (letters word).mpr named⟩, blanks, rfl, apart, blank⟩

theorem match?_bearer (named : word.map Char.toLower = "bearer".toList) (apart : blanks ≠ [])
    (blank : ∀ c ∈ blanks, Text.isBlank c = true) (filled : run ≠ [])
    (token : ∀ c ∈ run, isTokenChar c = true) :
    bearerRule.match? (word ++ (blanks ++ (run ++ rest))) =
      some (run ++ rest, rest.dropWhile isTokenChar) := by
  obtain ⟨c, later, rfl⟩ := List.exists_cons_of_ne_nil filled
  have first := token c List.mem_cons_self
  refine match?_of_unique (mem_bearerMark.mpr ⟨word, blanks, rfl, named, apart, blank⟩) ?_ ?_
  · intro rest' member values
    obtain ⟨word', blanks', split, named', -, blank'⟩ := mem_bearerMark.mp member
    have lengths : word.length = word'.length := by
      simpa using congrArg List.length (named.trans named'.symm)
    obtain ⟨rfl, same⟩ := List.append_inj split lengths
    have visible (cs : List Char) (token : ∀ c ∈ cs.head?, isTokenChar c = true) :
        ∀ c ∈ cs.head?, Text.isBlank c = false := by
      intro c head
      by_contra blank
      rw [Bool.not_eq_false] at blank
      have refused := not_isTokenChar_of_isBlank blank
      rw [token c head] at refused
      cases refused
    have here := dropWhile_run _ _ blank (visible (c :: later ++ rest) (by simpa using first))
    have there := dropWhile_run _ _ blank' (visible rest' fun c head => by
      obtain ⟨later, rfl⟩ : ∃ later, rest' = c :: later := List.head?_eq_some_iff.mp head
      by_contra refused
      exact values (rests_some_of_not (by simpa using refused)))
    rw [← same, here] at there
    exact there.symm
  · have all : ∀ c ∈ later, isTokenChar c = true := fun d member =>
      token d (List.mem_cons_of_mem _ member)
    have head : ((Pattern.some isTokenChar).rests (c :: (later ++ rest))).head? = _ :=
      head?_rests_some first
    rwa [List.dropWhile_append_of_pos all] at head

theorem bearerRule_within {inner : List Char} {found : List Char × List Char}
    (matched : bearerRule.match? (mark ++ rest) = some (rest, after)) (suffix : inner <:+ mark)
    (begins : inner ≠ []) (other : bearerRule.match? (inner ++ rest) = some found) :
    found = (rest, after) := by
  obtain ⟨front, rfl⟩ := suffix
  cases front with
  | nil =>
    rw [List.nil_append, other] at matched
    exact Option.some.inj matched
  | cons d front =>
    -- The first letter of the word does not come again in the mark.
    obtain ⟨word, blanks, split, named, -, blank⟩ := mem_bearerMark.mp (match?_eq_some matched).1
    obtain ⟨word', blanks', split', named', -, -⟩ := mem_bearerMark.mp (match?_eq_some other).1
    obtain ⟨c, later, rfl⟩ := List.exists_cons_of_ne_nil begins
    obtain ⟨e, word', rfl⟩ :=
      List.exists_cons_of_ne_nil (l := word') (by rintro rfl; simp at named')
    obtain ⟨e', word, rfl⟩ :=
      List.exists_cons_of_ne_nil (l := word) (by rintro rfl; simp at named)
    obtain ⟨rfl, -⟩ := List.cons.inj split'
    have initial : c.toLower = 'b' := (List.cons.inj named').1
    have remaining : front ++ c :: later = word ++ blanks := by
      rw [← List.append_assoc] at split
      exact (List.cons.inj (List.append_cancel_right split)).2
    have inside : c ∈ word ++ blanks := by simp [← remaining]
    rcases List.mem_append.mp inside with member | member
    · have letter : c.toLower ∈ ['e', 'a', 'r', 'e', 'r'] := by
        have later : word.map Char.toLower = ['e', 'a', 'r', 'e', 'r'] := (List.cons.inj named).2
        rw [← later]
        exact List.mem_map_of_mem member
      rw [initial] at letter
      simp at letter
    · have isBlank := blank c member
      rw [toLower_of_isBlank isBlank] at initial
      subst initial
      cases isBlank

theorem bearerRule_steady : bearerRule.Steady where
  marks := by decide
  values := by decide
  leads led := by cases led
  within matched suffix begins other := bearerRule_within matched suffix begins other

end Bearers
end MultiCluster.Gather
