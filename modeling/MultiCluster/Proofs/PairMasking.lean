import Mathlib.Data.List.Induction
import MultiCluster.Proofs.CredentialNames

/-! What masking makes of a log in which one pair names a credential. The text before the pair may
run on into its key, and the value may name credentials of its own; still the first match ends where
the pair does, since no match begins in a text that names no credential and a match that reaches
the key takes all of it. -/
namespace MultiCluster.Gather

open Pattern

variable {o : Options} {cs key separator rest value before after word : List Char}
  {found : List Char × List Char} {c : Char}

section Pairs

/-- What stands between the name of a credential and its value: a mark that closes a quotation,
blanks, a sign, and blanks again. -/
inductive Separation : List Char → Prop
  | around (quote blanks blanks' : List Char) (sign : Char) :
      quote = [] ∨ quote = ['"'] ∨ quote = ['\''] → (∀ c ∈ blanks, Text.isBlank c = true) →
      sign = '=' ∨ sign = ':' → (∀ c ∈ blanks', Text.isBlank c = true) →
      Separation (quote ++ (blanks ++ sign :: blanks'))

theorem Separation.mem_rests (separated : Separation separator) :
    rest ∈ pairSeparator.rests (separator ++ rest) := by
  cases separated with
  | around quote blanks blanks' sign quoted blank signed blank' =>
    simp only [pairSeparator, Pattern.sequence, mem_rests_append, mem_rests_optional,
      mem_rests_one, mem_rests_many]
    refine ⟨blanks ++ sign :: (blanks' ++ rest), ?_, sign :: (blanks' ++ rest),
      ⟨blanks, rfl, blank⟩, blanks' ++ rest, ⟨sign, rfl, ?_⟩, blanks', rfl, blank'⟩
    · rcases quoted with rfl | rfl | rfl
      · exact .inr (by simp)
      · exact .inl ⟨'"', by simp, by decide⟩
      · exact .inl ⟨'\'', by simp, by decide⟩
    · rcases signed with rfl | rfl <;> decide

theorem Separation.not_isKeyChar (separated : Separation separator) :
    ∀ c ∈ separator, isKeyChar c = false := by
  have whole : [] ∈ pairSeparator.rests (separator ++ []) := separated.mem_rests
  obtain ⟨run, split, others⟩ := run_of_mem_rests over_pairSeparator whole
  obtain rfl : separator = run := by simpa using split
  exact others

theorem Separation.ne_nil (separated : Separation separator) : separator ≠ [] := by
  cases separated
  simp

/-- Where a pair can be read, a key that names a credential stands before a character that is none
of a key. -/
theorem key_of_match (matched : pairRule.match? cs = some found) : ∃ key c later,
    cs = key ++ c :: later ∧ (∀ c ∈ key, isKeyChar c = true) ∧ NamesCredential key ∧
      isKeyChar c = false := by
  obtain ⟨middle, first, second⟩ := mem_pairMark.mp (match?_eq_some matched).1
  obtain ⟨key, rfl, keys, named⟩ := mem_pairKey.mp first
  obtain ⟨separator, rfl, others⟩ := run_of_mem_rests over_pairSeparator second
  have ends := length_lt_of_mem_rests (by decide) second
  cases separator with
  | nil => simp at ends
  | cons c later => exact ⟨key, c, _, rfl, keys, named, others c List.mem_cons_self⟩

theorem match?_pair (keys : ∀ c ∈ key, isKeyChar c = true) (named : NamesCredential key)
    (separated : Separation separator)
    (taken : (pairRule.value.rests (value ++ after)).head? = some after) :
    pairRule.match? (key ++ (separator ++ (value ++ after))) = some (value ++ after, after) := by
  have visible : ∀ c ∈ (value ++ after).head?, Text.isBlank c = false :=
    visible_of_value fun none => by simp [none] at taken
  refine match?_of_unique (mem_pairMark.mpr ⟨_, mem_pairKey.mpr ⟨key, rfl, keys, named⟩,
    separated.mem_rests⟩) ?_ taken
  intro rest member values
  obtain ⟨key', separator', split, -, filled, keys', others, ends⟩ := split_of_mem_pairMark member
  have here := dropWhile_of_split (value ++ after) keys separated.ne_nil separated.not_isKeyChar
  have there := dropWhile_of_split rest keys' filled others
  rw [← split, here] at there
  rw [eq_afterSeparator ends (visible_of_value values), ← there,
    ← eq_afterSeparator separated.mem_rests visible]

/-- A match does not begin in a text that names no credential unless it reaches behind it. -/
theorem match?_of_quiet (quiet : ¬ NamesCredential before) (member : c ∈ before)
    (other : isKeyChar c = false) : pairRule.match? (before ++ cs) = none := by
  cases matched : pairRule.match? (before ++ cs) with
  | none => rfl
  | some found =>
    exfalso
    obtain ⟨key, d, later, split, keys, named, -⟩ := key_of_match matched
    rcases List.append_eq_append_iff.mp split with ⟨inside, rfl, -⟩ | ⟨behind, rfl, -⟩
    · have refused := keys c (List.mem_append_left inside member)
      rw [other] at refused
      cases refused
    · exact quiet (named.mono (List.prefix_append key behind).isInfix)

theorem mask_pairs_of_quiet (quiet : ¬ NamesCredential cs) : pairRule.mask 0 false cs = cs := by
  refine mask_of_quiet pairRule_steady fun front back split _ => ?_
  cases matched : pairRule.match? back with
  | none => rfl
  | some found =>
    obtain ⟨key, d, later, rfl, -, named, -⟩ := key_of_match matched
    exact absurd (named.mono (split ▸ List.infix_append' front key (d :: later))) quiet

/-- A text ends in a run of characters of a class, and before the run in none of the class. -/
theorem exists_run (accepts : Char → Bool) (cs : List Char) : ∃ front run, cs = front ++ run ∧
    (∀ c ∈ run, accepts c = true) ∧ ∀ c ∈ front.getLast?, accepts c = false := by
  induction cs using List.reverseRecOn with
  | nil => exact ⟨[], [], rfl, by simp, by simp⟩
  | append_singleton cs c ih =>
    by_cases accepted : accepts c = true
    · obtain ⟨front, run, rfl, all, last⟩ := ih
      refine ⟨front, run ++ [c], by simp, ?_, last⟩
      exact List.forall_mem_append.mpr ⟨all, by simpa using accepted⟩
    · exact ⟨cs ++ [c], [], by simp, by simp, by simpa using accepted⟩

/-- The value of the first pair is replaced, and masking goes on behind it. -/
theorem mask_pair (quiet : ¬ NamesCredential before) (keys : ∀ c ∈ key, isKeyChar c = true)
    (named : NamesCredential key) (separated : Separation separator)
    (taken : (pairRule.value.rests (value ++ after)).head? = some after) :
    pairRule.mask 0 false (before ++ (key ++ (separator ++ (value ++ after)))) =
      before ++ (key ++ (separator ++ (redacted.toList ++ pairRule.mask 0 false after))) := by
  -- The match begins where the run of key characters does, which may be in the text before.
  obtain ⟨front, run, rfl, glued, stop⟩ := exists_run isKeyChar before
  have keys' : ∀ c ∈ run ++ key, isKeyChar c = true := List.forall_mem_append.mpr ⟨glued, keys⟩
  have named' : NamesCredential (run ++ key) := named.mono (List.suffix_append run key).isInfix
  have matched : pairRule.match? (run ++ key ++ separator ++ (value ++ after)) =
      Option.some (value ++ after, after) := by
    simpa using match?_pair keys' named' separated taken
  have masked := mask_of_match pairRule_steady matched
  have copied : pairRule.mask 0 false (front ++ (run ++ key ++ separator ++ (value ++ after))) =
      front ++ pairRule.mask 0 false (run ++ key ++ separator ++ (value ++ after)) := by
    refine mask_append pairRule_steady fun front' back split filled => ?_
    have last : back.getLast filled ∈ front.getLast? := by
      rw [split, List.getLast?_append_of_ne_nil _ filled, List.getLast?_eq_some_getLast filled]
      rfl
    refine match?_of_quiet (fun more => quiet (more.mono ?_)) (List.getLast_mem filled)
      (stop _ last)
    rw [split, List.append_assoc]
    exact List.infix_append' front' back run
  rw [masked] at copied
  simpa using copied

/-- A bare value is taken up to where it ends. -/
theorem taken_of_bare (filled : value ≠ []) (bare : ∀ c ∈ value, isBareChar c = true)
    (ends : ∀ c ∈ after.head?, isBareChar c = false) :
    (pairRule.value.rests (value ++ after)).head? = Option.some after := by
  obtain ⟨c, value, rfl⟩ := List.exists_cons_of_ne_nil filled
  obtain ⟨first, others⟩ := List.forall_mem_cons.mp bare
  have plain (quote : Char) (refused : isBareChar quote = false) : c ≠ quote :=
    ne_of_refused first refused
  have whole : ((Pattern.some isBareChar).rests (c :: (value ++ after))).head? =
      Option.some after := by
    rw [head?_rests_some first, dropWhile_run value after others ends]
  simpa [pairRule, choice, rests, rests_quotedBy_of_ne (plain '"' (by decide)),
    rests_quotedBy_of_ne (plain '\'' (by decide))] using whole

end Pairs

section Bearers

def MarksBearer (cs : List Char) : Prop := ∃ word blank, word ++ [blank] <:+: cs ∧
  List.Forall₂ (isLetter · · = true) "bearer".toList word ∧ Text.isBlank blank = true

/-- A word and a character behind it stand on one side of a boundary, or the word reaches it. -/
theorem infix_concat_append {A B : List Char} (inside : word ++ [c] <:+: A ++ B) :
    word ++ [c] <:+: A ∨ word ++ [c] <:+: B ∨
      ∃ front back, word = front ++ back ∧ front <:+ A ∧ back ++ [c] <+: B := by
  rcases List.infix_append_iff.mp inside with left | right | ⟨front, back, split, tail, head⟩
  · exact .inl left
  · exact .inr (.inl right)
  · rcases List.eq_nil_or_concat back with rfl | ⟨back, d, rfl⟩
    · rw [List.append_nil] at split
      exact .inl (split ▸ tail.isInfix)
    · rw [List.concat_eq_append] at split head
      rw [← List.append_assoc] at split
      obtain ⟨rfl, same⟩ := List.append_inj' split rfl
      exact .inr (.inr ⟨front, back, rfl, tail, same ▸ head⟩)

/-- A word of key characters before another one reaches no further than a stretch that does not
begin with one. -/
theorem infix_of_stop {A B : List Char} (inside : word ++ [c] <:+: A ++ B)
    (keys : ∀ c ∈ word, isKeyChar c = true) (ends : ∀ c ∈ B.head?, isKeyChar c = false) :
    word ++ [c] <:+: A ∨ word <:+ A ∨ word <:+: B := by
  rcases infix_concat_append inside with left | right | ⟨front, back, rfl, tail, head⟩
  · exact .inl left
  · exact .inr (.inr ((List.prefix_append word [c]).isInfix.trans right))
  · cases back with
    | nil => exact .inr (.inl (by simpa using tail))
    | cons e back =>
      obtain ⟨B, rfl⟩ := head
      have refused := ends e rfl
      rw [keys e (by simp)] at refused
      cases refused

theorem MarksBearer.mentions (marks : MarksBearer cs) : Mentions "bearer" cs := by
  obtain ⟨word, blank, inside, spelled, -⟩ := marks
  exact ⟨word, (List.prefix_append word [blank]).isInfix.trans inside, spelled⟩

theorem mask_bearers_of_unmarked (unmarked : ¬ MarksBearer cs) :
    bearerRule.mask 0 false cs = cs := by
  refine mask_of_quiet bearerRule_steady fun front back split _ => ?_
  cases matched : bearerRule.match? back with
  | none => rfl
  | some found =>
    obtain ⟨word, blanks, rfl, named, apart, blank⟩ :=
      mem_bearerMark.mp (match?_eq_some matched).1
    obtain ⟨b, blanks, rfl⟩ := List.exists_cons_of_ne_nil apart
    refine absurd ⟨word, b, ?_, (forall₂_isLetter_iff (by simp)).mpr named,
      blank b List.mem_cons_self⟩ unmarked
    exact ⟨front, blanks ++ found.1, by simp [split]⟩

theorem mask_bearers_of_visible (visible : ∀ c ∈ cs, Text.isBlank c = false) :
    bearerRule.mask 0 false cs = cs := by
  refine mask_bearers_of_unmarked ?_
  rintro ⟨word, blank, inside, -, isBlank⟩
  have refused := visible blank (inside.subset (by simp))
  rw [isBlank] at refused
  cases refused

theorem mask_bearers_of_quiet (quiet : ¬ Mentions "bearer" cs) :
    bearerRule.mask 0 false cs = cs :=
  mask_bearers_of_unmarked fun marks => quiet marks.mentions

/-- The word for a bearer holds no other word. -/
theorem not_named_of_bearer (spelled : List.Forall₂ (isLetter · · = true) "bearer".toList word) :
    ¬ NamesCredential word := by
  rintro ⟨name, listed, run, inside, spelled'⟩
  have letters := (forall₂_isLetter_iff (by simp)).mp spelled
  have initials : ∀ name ∈ credentialWords, name.toList.headD 'b' ∉ "bearer".toList := by decide
  have other := initials name listed
  cases split : name.toList with
  | nil => simp [split] at other
  | cons letter later =>
    rw [split] at spelled' other
    obtain ⟨c, run, accepted, -, rfl⟩ := List.forall₂_cons_left_iff.mp spelled'
    have lower : c.toLower ∈ "bearer".toList := by
      rw [← letters]
      exact List.mem_map_of_mem (inside.subset List.mem_cons_self)
    simp only [isLetter, Bool.or_eq_true, Bool.and_eq_true, beq_iff_eq] at accepted
    rcases accepted with (same | ⟨-, rfl⟩) | ⟨-, rfl⟩
    · exact other (same ▸ lower)
    · exact absurd lower (by decide)
    · exact absurd lower (by decide)

end Bearers

section Logs

def Quiet (cs : List Char) : Prop := ¬ NamesCredential cs ∧ ¬ Mentions "bearer" cs

instance : Decidable (Quiet cs) := inferInstanceAs (Decidable (_ ∧ _))

/-- A text with one credential pair that has a bare value. -/
structure LonePair (before key separator value after : List Char) : Prop where
  keys : ∀ c ∈ key, isKeyChar c = true
  named : NamesCredential key
  plain : ¬ Mentions "bearer" key
  separated : Separation separator
  filled : value ≠ []
  bare : ∀ c ∈ value, isBareChar c = true
  ends : ∀ c ∈ after.head?, isBareChar c = false
  quiet : Quiet before
  quiet' : Quiet after

/-- What is kept from the separator on does not speak of bearers. -/
theorem LonePair.silent (pair : LonePair before key separator value after) :
    ¬ Mentions "bearer" (separator ++ (redacted.toList ++ after)) := by
  rintro ⟨word, inside, spelled⟩
  have letters : ∀ c ∈ word, isKeyChar c = true := isKeyChar_of_spelled (by decide) spelled
  have others : ∀ c ∈ separator.getLast?, isKeyChar c = false := by
    intro c last
    exact pair.separated.not_isKeyChar c (List.mem_of_getLast? last)
  have stops : ∀ c ∈ after.head?, isKeyChar c = false := by
    intro c head
    by_contra member
    have refused := pair.ends c head
    rw [isBareChar_of_isKeyChar (by simpa using member)] at refused
    cases refused
  rcases infix_of_boundary inside letters (.inl others) with left | right
  · have first : ∃ c, c ∈ word := by
      refine List.exists_mem_of_ne_nil word ?_
      rintro rfl
      cases spelled
    obtain ⟨c, member⟩ := first
    have refused := pair.separated.not_isKeyChar c (left.subset member)
    rw [letters c member] at refused
    cases refused
  · rcases infix_of_boundary right letters (.inr stops) with within | later
    · have unspoken : ¬ Mentions "bearer" redacted.toList := by decide
      exact unspoken ⟨word, within, spelled⟩
    · exact pair.quiet'.2 ⟨word, later, spelled⟩

/-- The pair marks no bearer token, not even one whose word begins in the text before it. -/
theorem LonePair.unmarked (pair : LonePair before key separator value after) :
    ¬ MarksBearer (before ++ key ++ (separator ++ (redacted.toList ++ after))) := by
  rintro ⟨word, blank, inside, spelled, isBlank⟩
  have letters : ∀ c ∈ word, isKeyChar c = true := isKeyChar_of_spelled (by decide) spelled
  have begins : ∀ c ∈ (separator ++ (redacted.toList ++ after)).head?, isKeyChar c = false := by
    rw [List.head?_append_of_ne_nil _ pair.separated.ne_nil]
    intro c head
    exact pair.separated.not_isKeyChar c (List.mem_of_mem_head? head)
  rcases infix_of_stop inside letters begins with early | ends | late
  · rcases infix_concat_append early with left | right | ⟨front, back, -, -, head⟩
    · exact pair.quiet.2 ⟨word, (List.prefix_append word [blank]).isInfix.trans left, spelled⟩
    · exact pair.plain ⟨word, (List.prefix_append word [blank]).isInfix.trans right, spelled⟩
    · -- The blank would stand in the key.
      have member := pair.keys blank (head.subset (by simp))
      rw [not_isKeyChar_of_isBlank isBlank] at member
      cases member
  · rcases List.suffix_or_suffix_of_suffix ends (List.suffix_append before key) with own | whole
    · exact pair.plain ⟨word, own.isInfix, spelled⟩
    · exact not_named_of_bearer spelled (pair.named.mono whole.isInfix)
  · exact pair.silent ⟨word, late, spelled⟩

theorem LonePair.masked (pair : LonePair before key separator value after) :
    pairRule.mask 0 false (before ++ (key ++ (separator ++ (value ++ after)))) =
      before ++ (key ++ (separator ++ (redacted.toList ++ after))) := by
  rw [mask_pair pair.quiet.1 pair.keys pair.named pair.separated
    (taken_of_bare pair.filled pair.bare pair.ends), mask_pairs_of_quiet pair.quiet'.1]

/-- Logs with credentials are kept as they are, and so is a log without any. Of a log with one
credential pair the value is replaced and nothing else is touched. -/
theorem keptLog_lonePair (o : Options) :
    (o.includeSensitiveData = true → ∀ text, keptLog o text = text) ∧
    (o.includeSensitiveData = false →
      (∀ text, Quiet text.toList → keptLog o text = text) ∧
      ∀ before key separator value after : String,
        LonePair before.toList key.toList separator.toList value.toList after.toList →
        keptLog o (before ++ key ++ separator ++ value ++ after) =
          before ++ key ++ separator ++ redacted ++ after) := by
  constructor
  · intro kept text
    rw [keptLog, if_pos kept]
  · intro masking
    have masked (text : String) : keptLog o text = redactLog text :=
      if_neg (by simp [masking])
    constructor
    · intro text quiet
      rw [masked, redactLog, mask_pairs_of_quiet quiet.1, mask_bearers_of_quiet quiet.2,
        String.ofList_toList]
    · intro before key separator value after pair
      rw [masked, redactLog]
      have unmarked := mask_bearers_of_unmarked pair.unmarked
      simp only [String.toList_append, List.append_assoc] at unmarked ⊢
      rw [pair.masked, unmarked]
      simp [String.ofList_append, String.append_assoc]

theorem keptLog_lonePair_psk :
    let o : Options := ⟨[], [], "", false⟩
    (o.includeSensitiveData = false ∧ Quiet "all is well".toList ∧ LonePair "level=info id-".toList
      "ipsec_PSK".toList " : ".toList "a=token".toList "; ok".toList) ∧
    keptLog ⟨[], [], "", true⟩ "psk=a" = "psk=a" ∧ keptLog o "all is well" = "all is well" ∧
    keptLog o ("level=info id-" ++ "ipsec_PSK" ++ " : " ++ "a=token" ++ "; ok") =
      "level=info id-" ++ "ipsec_PSK" ++ " : " ++ redacted ++ "; ok" :=
  have quiet : Quiet "all is well".toList := by decide
  have pair : LonePair "level=info id-".toList "ipsec_PSK".toList " : ".toList "a=token".toList
      "; ok".toList :=
    { keys := List.all_eq_true.mp (by decide)
      named := by decide
      plain := by decide
      separated := .around [] [' '] [' '] ':' (.inl rfl) (by simp [Text.isBlank]) (.inr rfl)
        (by simp [Text.isBlank])
      filled := by decide
      bare := List.all_eq_true.mp (by decide)
      ends := by
        intro c head
        obtain rfl : ';' = c := by simpa using head
        decide
      quiet := by decide
      quiet' := by decide }
  have kept := (keptLog_lonePair ⟨[], [], "", false⟩).2 rfl
  ⟨⟨rfl, quiet, pair⟩, (keptLog_lonePair ⟨[], [], "", true⟩).1 rfl _, kept.1 _ quiet,
    kept.2 _ _ _ _ _ pair⟩

end Logs

end MultiCluster.Gather
