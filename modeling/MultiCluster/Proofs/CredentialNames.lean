import Mathlib.Data.List.Infix
import MultiCluster.Proofs.CredentialRules

/-! Which texts name a credential. A word is mentioned by a text in which it occurs in any case, and
a key names a credential if it mentions one of a few words. A pair can be read just where such a key
stands before a separator, so a text that mentions none of the words is not touched. -/
namespace MultiCluster.Gather

open Pattern

variable {A B cs key sep run rest value before after : List Char} {accepts : Char → Bool}
  {word : String}

section Words

def Mentions (word : String) (cs : List Char) : Prop :=
  ∃ run, run <:+: cs ∧ List.Forall₂ (isLetter · · = true) word.toList run

def credentialWords : List String :=
  ["token", "password", "passwd", "psk", "secret", "credential", "privatekey", "private_key"]

def NamesCredential (cs : List Char) : Prop := ∃ word ∈ credentialWords, Mentions word cs

theorem mentions_iff : Mentions word cs ↔ ∃ later ∈ cs.tails,
    List.Forall₂ (isLetter · · = true) word.toList (later.take word.toList.length) := by
  constructor
  · rintro ⟨run, ⟨front, back, rfl⟩, spelled⟩
    refine ⟨run ++ back, (List.mem_tails _ _).mpr ⟨front, by simp⟩, ?_⟩
    rwa [spelled.length_eq, List.take_left]
  · rintro ⟨later, member, spelled⟩
    have tail : later <:+ cs := (List.mem_tails _ _).mp member
    exact ⟨_, (List.take_prefix _ _).isInfix.trans tail.isInfix, spelled⟩

instance : Decidable (Mentions word cs) := decidable_of_iff' _ mentions_iff

instance : Decidable (NamesCredential cs) :=
  inferInstanceAs (Decidable (∃ word ∈ credentialWords, Mentions word cs))

theorem Mentions.mono (mentions : Mentions word cs) (inside : cs <:+: rest) :
    Mentions word rest := by
  obtain ⟨run, within, spelled⟩ := mentions
  exact ⟨run, within.trans inside, spelled⟩

theorem NamesCredential.mono (named : NamesCredential cs) (inside : cs <:+: rest) :
    NamesCredential rest := by
  obtain ⟨word, listed, mentions⟩ := named
  exact ⟨word, listed, mentions.mono inside⟩

/-- A run of characters of a class does not reach across a place where the class ends. -/
theorem infix_of_boundary (inside : run <:+: A ++ B) (all : ∀ c ∈ run, accepts c = true)
    (ends : (∀ c ∈ A.getLast?, accepts c = false) ∨ ∀ c ∈ B.head?, accepts c = false) :
    run <:+: A ∨ run <:+: B := by
  rcases List.infix_append_iff.mp inside with left | right | ⟨front, back, rfl, tail, head⟩
  · exact .inl left
  · exact .inr right
  · rcases List.eq_nil_or_concat front with rfl | ⟨front, c, rfl⟩
    · exact .inr head.isInfix
    cases back with
    | nil => exact .inl (by simpa using tail.isInfix)
    | cons d back =>
      obtain ⟨A, rfl⟩ := tail
      obtain ⟨B, rfl⟩ := head
      rcases ends with last | first
      · have refused := last c (by simp)
        rw [all c (by simp)] at refused
        cases refused
      · have refused := first d (by simp)
        rw [all d (by simp)] at refused
        cases refused

theorem isLetter_underscore {c : Char} : isLetter '_' c = true ↔ c = '_' := by
  constructor
  · intro accepted
    have lower : c.toLower = '_' := by simpa [isLetter] using accepted
    by_cases upper : c.isUpper = true
    · have capitals : ∀ n < 91, 65 ≤ n → (Char.ofNat n).toLower ≠ '_' := by decide
      have range : 65 ≤ c.toNat ∧ c.toNat < 91 := by
        change decide (c.val ≥ 'A'.val ∧ c.val ≤ 'Z'.val) = true at upper
        rw [decide_eq_true_eq, ge_iff_le, UInt32.le_iff_toNat_le, UInt32.le_iff_toNat_le] at upper
        exact ⟨upper.1, Nat.lt_succ_of_le upper.2⟩
      exact absurd (by rwa [Char.ofNat_toNat]) (capitals c.toNat range.2 range.1)
    · have itself : c.toLower = c := dif_neg fun range => upper (decide_eq_true range)
      rwa [itself] at lower
  · rintro rfl
    decide

/-- The letters of words, beside which there may be underscores, are characters of keys. -/
theorem isKeyChar_of_spelled {letters : List Char}
    (plain : letters.all (fun l => l.isLower || l == '_'))
    (spelled : List.Forall₂ (isLetter · · = true) letters run) : ∀ c ∈ run, isKeyChar c = true := by
  induction spelled with
  | nil => simp
  | @cons letter c letters run accepted _ ih =>
    rw [List.all_cons, Bool.and_eq_true] at plain
    refine List.forall_mem_cons.mpr ⟨?_, ih plain.2⟩
    rcases Bool.or_eq_true_iff.mp plain.1 with lower | underscore
    · exact isKeyChar_of_isLetter lower accepted
    · obtain rfl : letter = '_' := by simpa using underscore
      rw [isLetter_underscore.mp accepted]
      decide

theorem isKeyChar_of_named (listed : word ∈ credentialWords)
    (spelled : List.Forall₂ (isLetter · · = true) word.toList run) :
    ∀ c ∈ run, isKeyChar c = true := by
  have plain : ∀ word ∈ credentialWords,
      word.toList.all (fun l => l.isLower || l == '_') = true := by decide
  exact isKeyChar_of_spelled (plain word listed) spelled

end Words

section Patterns

theorem mem_rests_word_append {letters letters' : List Char} :
    rest ∈ (Pattern.word (letters ++ letters')).rests cs ↔
      ∃ middle ∈ (Pattern.word letters).rests cs, rest ∈ (Pattern.word letters').rests middle := by
  induction letters generalizing cs with
  | nil =>
    have itself {middle : List Char} : middle ∈ (Pattern.word []).rests cs ↔ middle = cs := by
      rw [mem_rests_word]
      constructor
      · rintro ⟨_, rfl, ⟨⟩⟩
        rfl
      · rintro rfl
        exact ⟨[], rfl, .nil⟩
    simp [itself]
  | cons letter letters ih =>
    rw [List.cons_append, mem_rests_word_cons]
    simp only [mem_rests_word_cons, ih]
    constructor
    · rintro ⟨c, later, rfl, accepted, middle, first, second⟩
      exact ⟨middle, ⟨c, later, rfl, accepted, first⟩, second⟩
    · rintro ⟨middle, ⟨c, later, rfl, accepted, first⟩, second⟩
      exact ⟨c, later, rfl, accepted, middle, first, second⟩

/-- The underscore in a word may be left out. -/
theorem mem_rests_privateKey : rest ∈ (Pattern.sequence [Pattern.word "private".toList,
      optional (Pattern.char '_'), Pattern.word "key".toList]).rests cs ↔
    rest ∈ (Pattern.word "privatekey".toList).rests cs ∨
      rest ∈ (Pattern.word "private_key".toList).rests cs := by
  have joined : "privatekey".toList = "private".toList ++ "key".toList := by decide
  have parted : "private_key".toList = "private".toList ++ '_' :: "key".toList := by decide
  have underscore (middle : List Char) : rest ∈ (Pattern.word ('_' :: "key".toList)).rests middle ↔
      ∃ behind, middle = '_' :: behind ∧ rest ∈ (Pattern.word "key".toList).rests behind := by
    simp [mem_rests_word_cons, isLetter_underscore]
  rw [joined, parted, mem_rests_word_append, mem_rests_word_append]
  simp only [underscore, Pattern.sequence, mem_rests_append, mem_rests_optional, Pattern.char,
    mem_rests_one, beq_iff_eq]
  constructor
  · rintro ⟨middle, first, behind, ⟨_, rfl, rfl⟩ | rfl, last⟩
    · exact .inr ⟨_, first, behind, rfl, last⟩
    · exact .inl ⟨_, first, last⟩
  · rintro (⟨middle, first, last⟩ | ⟨_, first, behind, rfl, last⟩)
    · exact ⟨middle, first, middle, .inr rfl, last⟩
    · exact ⟨_, first, behind, .inl ⟨'_', rfl, rfl⟩, last⟩

theorem mem_rests_credentialWord : rest ∈ credentialWord.rests cs ↔ ∃ word ∈ credentialWords,
    ∃ run, cs = run ++ rest ∧ List.Forall₂ (isLetter · · = true) word.toList run := by
  simp only [← mem_rests_word, credentialWords, List.mem_cons, List.not_mem_nil, or_false,
    exists_eq_or_imp, exists_eq_left]
  simp only [credentialWord, choice, mem_rests_either, ← mem_rests_privateKey]
  rfl

/-- The key of a pair is any run of characters of keys that names a credential. -/
theorem mem_pairKey : rest ∈ pairKey.rests cs ↔
    ∃ key, cs = key ++ rest ∧ (∀ c ∈ key, isKeyChar c = true) ∧ NamesCredential key := by
  simp only [pairKey, Pattern.sequence, mem_rests_append, mem_rests_many, mem_rests_credentialWord]
  constructor
  · rintro ⟨_, ⟨front, rfl, keys⟩, _, ⟨word, listed, run, rfl, spelled⟩, back, rfl, keys'⟩
    refine ⟨front ++ (run ++ back), by simp, ?_, word, listed, run, List.infix_append' .., spelled⟩
    exact List.forall_mem_append.mpr
      ⟨keys, List.forall_mem_append.mpr ⟨isKeyChar_of_named listed spelled, keys'⟩⟩
  · rintro ⟨_, rfl, keys, word, listed, run, ⟨front, back, rfl⟩, spelled⟩
    simp only [List.forall_mem_append] at keys
    exact ⟨run ++ (back ++ rest), ⟨front, by simp, keys.1.1⟩, back ++ rest,
      ⟨word, listed, run, rfl, spelled⟩, back, rfl, keys.2⟩

end Patterns

end MultiCluster.Gather
