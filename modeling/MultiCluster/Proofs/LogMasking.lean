import MultiCluster.Proofs.CredentialRules

/-! What of a log is not copied. The value of a credential pair is replaced wherever the pair is
read, unless its name begins in the value of another pair, and so is a bearer token, unless its word
begins in text that is replaced. Both exceptions leak: an empty pair takes the name of the next one
for its value, and a pair takes the word before the token. -/
namespace MultiCluster.Gather

/-- Where a character of a log is found in what is kept of the log; none if it is replaced. -/
def keptAt? (o : Options) (text : String) (i : Nat) : Option Nat :=
  if o.includeSensitiveData then (if i < text.toList.length then some i else none)
  else (copyOf? (pairRule.pieces 0 text.toList) i).bind
    (copyOf? (bearerRule.pieces 0 (pairRule.mask 0 false text.toList)))

variable {o : Options} {text : String} {i j : Nat} {c : Char} {ps qs : List Piece}
  {cs rest before mark value after word blanks run : List Char}

theorem outputs_pairs : outputs (pairRule.pieces 0 cs) = pairRule.mask 0 false cs :=
  outputs_pieces pairRule_steady (by simp)

theorem outputs_bearers : outputs (bearerRule.pieces 0 cs) = bearerRule.mask 0 false cs :=
  outputs_pieces bearerRule_steady (by simp)

theorem sources_pairs : sources (pairRule.pieces 0 cs) = cs :=
  sources_of_splits (splits_pieces pairRule_steady)

theorem sources_bearers : sources (bearerRule.pieces 0 cs) = cs :=
  sources_of_splits (splits_pieces bearerRule_steady)

/-- A character that is found there is the same. -/
theorem getElem?_of_keptAt? (kept : keptAt? o text i = some j) :
    (keptLog o text).toList[j]? = text.toList[i]? := by
  unfold keptAt? at kept
  unfold keptLog
  by_cases sensitive : o.includeSensitiveData = true
  · rw [if_pos sensitive] at kept ⊢
    by_cases inside : i < text.toList.length
    · rw [if_pos inside] at kept
      rw [Option.some.inj kept]
    · rw [if_neg inside] at kept
      cases kept
  · rw [if_neg sensitive] at kept ⊢
    obtain ⟨middle, first, second⟩ := Option.bind_eq_some_iff.mp kept
    have early := getElem?_of_copyOf? first
    have late := getElem?_of_copyOf? second
    rw [outputs_pairs, sources_pairs] at early
    rw [outputs_bearers, sources_bearers] at late
    rw [redactLog, String.toList_ofList, late, early]

/-- The places of a log follow its redaction: the pieces of the first pass make up the log, what the
second pass leaves of their outputs is the redacted log, and this is what is kept. A character that
is found there is the same. -/
structure Traced (o : Options) (text : String) : Prop where
  whole : sources (pairRule.pieces 0 text.toList) = text.toList
  passes : redactLog text =
    String.ofList (outputs (bearerRule.pieces 0 (outputs (pairRule.pieces 0 text.toList))))
  kept : keptLog o text = redactLog text
  same : ∀ i j, keptAt? o text i = some j → (redactLog text).toList[j]? = text.toList[i]?

theorem traced (masking : o.includeSensitiveData = false) : Traced o text := by
  have kept : keptLog o text = redactLog text := if_neg (by simp [masking])
  refine ⟨sources_pairs, ?_, kept, fun i j found => ?_⟩
  · rw [outputs_pairs, outputs_bearers, redactLog]
  · rw [← kept]
    exact getElem?_of_keptAt? found

theorem keptAt?_of_masked (masking : o.includeSensitiveData = false)
    (masked : copyOf? (pairRule.pieces 0 text.toList) i = none) : keptAt? o text i = none := by
  simp [keptAt?, masking, masked]

section Pairs

/-- The value of a pair that is read anywhere in a log is not copied, unless the name of the pair
begins in a value that is replaced. -/
theorem pair_masked (masking : o.includeSensitiveData = false)
    (found : pairRule.Finds text.toList before mark value after) : Traced o text ∧
    (copyOf? (pairRule.pieces 0 text.toList) before.length = none ∨
      ∀ k < value.length, keptAt? o text (before.length + mark.length + k) = none) := by
  refine ⟨traced masking, ?_⟩
  rcases (splits_pieces pairRule_steady).value_masked pairRule_steady found with masked | masked
  · exact .inl masked
  · exact .inr fun k inside => keptAt?_of_masked masking (masked k inside)

theorem pair_masked_in_quotes :
    pairRule.Finds "\"psk\": 'a b', ok".toList ['"'] "psk\": ".toList "'a b'".toList ", ok".toList ∧
      Traced ⟨[], [], "", false⟩ "\"psk\": 'a b', ok" ∧
      (copyOf? (pairRule.pieces 0 "\"psk\": 'a b', ok".toList) 1 = none ∨
        ∀ k < 5, keptAt? ⟨[], [], "", false⟩ "\"psk\": 'a b', ok" (1 + 6 + k) = none) :=
  have found : pairRule.Finds "\"psk\": 'a b', ok".toList ['"'] "psk\": ".toList "'a b'".toList
      ", ok".toList := ⟨by decide +kernel, by decide +kernel⟩
  ⟨found, pair_masked rfl found⟩

/-- A key without a value takes the next pair's name for it, and the next pair's value is copied. -/
theorem password_behind_empty_token :
    let o : Options := ⟨[], [], "", false⟩
    let text := "token:\npassword: hunter2"
    pairRule.Finds text.toList "token:\n".toList "password: ".toList "hunter2".toList [] ∧
      keptLog o text = "token:\nREDACTED hunter2" ∧
      (List.range 7).map (fun k => keptAt? o text (17 + k)) =
        (List.range 7).map fun k => some (16 + k) := by
  refine ⟨⟨by decide +kernel, by decide +kernel⟩, by decide +kernel, by decide +kernel⟩

end Pairs

section Bearers

/-- A value that is replaced stands behind a separator and does not begin with a blank. -/
theorem around_masked (splits : pairRule.Splits cs (ps ++ .masked value :: qs)) :
    value ≠ [] ∧ (∀ c ∈ (sources ps).getLast?, isKeyChar c = false) ∧
      (∀ c ∈ (value ++ sources qs).head?, Text.isBlank c = false) := by
  obtain ⟨front, mark, split, matched⟩ := splits.matched_of_masked
  obtain ⟨-, filled⟩ := lengths_of_match? pairRule_steady matched
  obtain ⟨key, separator, whole, -, apart, -, others, -⟩ := rest_of_pairMatch matched
  obtain rfl : mark = key ++ separator := by
    rw [← List.append_assoc key] at whole
    exact List.append_cancel_right whole
  refine ⟨?_, fun c last => ?_, ?_⟩
  · rintro rfl
    simp at filled
  · have inside : c ∈ separator.getLast? := by
      rwa [split, ← List.append_assoc, List.getLast?_append_of_ne_nil _ apart] at last
    exact others c (List.mem_of_getLast? inside)
  · have head := (match?_eq_some matched).2
    exact visible_of_value fun none => by simp [none] at head

/-- The word and the blanks before a token are copied, if the first letter is. -/
theorem word_copied (splits : pairRule.Splits cs (ps ++ .kept c :: qs))
    (split : sources (.kept c :: qs) = word ++ blanks ++ rest)
    (named : word.map Char.toLower = "bearer".toList)
    (blank : ∀ c ∈ blanks, Text.isBlank c = true) :
    ∃ later, .kept c :: qs = (word ++ blanks).map .kept ++ later ∧ sources later = rest := by
  have letters : ∀ d ∈ word, isKeyChar d = true := fun d member => by
    have lower : d.toLower ∈ "bearer".toList := named ▸ List.mem_map_of_mem member
    have each : "bearer".toList.all Char.isLower = true := by decide
    exact isKeyChar_of_isAlphanum (isAlphanum_of_toLower (List.all_eq_true.mp each _ lower) rfl)
  obtain ⟨first, word', rfl⟩ :=
    List.exists_cons_of_ne_nil (l := word) (by rintro rfl; simp at named)
  obtain ⟨rfl, next⟩ : c = first ∧ sources qs = word' ++ blanks ++ rest := by
    simpa [Piece.source] using split
  obtain ⟨later, rfl, behind⟩ := copied_of_unmasked next fun qs₁ value qs₂ same => by
    subst same
    have joined : pairRule.Splits cs ((ps ++ .kept c :: qs₁) ++ .masked value :: qs₂) := by
      simpa using splits
    obtain ⟨-, last, visible⟩ := around_masked joined
    rw [sources_append, sources_cons, Piece.source] at next
    rcases List.append_eq_append_iff.mp next with ⟨covered, same, begins⟩ | ⟨_, same, -⟩
    · cases covered with
      | nil => simp [same]
      | cons d covered =>
        rcases List.append_eq_append_iff.mp same with ⟨_, -, same'⟩ | ⟨_, same', -⟩
        · -- The value would begin with a blank.
          have isBlank := blank d (by simp [same'])
          rw [visible d (by simp [begins])] at isBlank
          cases isBlank
        · -- The value would begin behind a letter of the word.
          obtain ⟨e, ends⟩ : ∃ e, (c :: sources qs₁).getLast? = some e :=
            ⟨_, List.getLast?_eq_some_getLast (List.cons_ne_nil _ _)⟩
          have other := last e (by
            rw [sources_append, sources_cons, Piece.source, List.singleton_append,
              List.getLast?_append_of_ne_nil _ (List.cons_ne_nil _ _)]
            exact ends)
          have letter := letters e (by
            rw [same', ← List.cons_append]
            exact List.mem_append_left _ (List.mem_of_getLast? ends))
          rw [letter] at other
          cases other
    · simp [same]
  exact ⟨later, by simp, behind⟩

/-- A value that begins with a character of a token reaches behind the token. -/
theorem length_le_of_bare (matched : pairRule.match? cs = some (run ++ rest, after))
    (filled : run ≠ []) (token : ∀ c ∈ run, isTokenChar c = true) :
    after.length ≤ rest.length := by
  have head := (match?_eq_some matched).2
  obtain ⟨c, run, rfl⟩ := List.exists_cons_of_ne_nil filled
  obtain ⟨first, others⟩ := List.forall_mem_cons.mp token
  have unquoted (quote : Char) (refused : isTokenChar quote = false) :
      (quotedBy quote).rests (c :: (run ++ rest)) = [] :=
    rests_quotedBy_of_ne (ne_of_refused first refused)
  have bare : ((Pattern.some isBareChar).rests (c :: (run ++ rest))).head? = some after := by
    simpa [pairRule, Pattern.choice, Pattern.rests, unquoted '"' (by decide),
      unquoted '\'' (by decide)] using head
  rw [Pattern.head?_rests_some (isBareChar_of_isTokenChar first), List.dropWhile_append_of_pos
    fun d inside => isBareChar_of_isTokenChar (others d inside)] at bare
  rw [← Option.some.inj bare]
  exact (List.dropWhile_suffix _).length_le

/-- A first part of a token is copied, and the rest of it is not. -/
theorem token_split (splits : pairRule.Splits cs (ps ++ qs)) (split : sources qs = run ++ rest)
    (token : ∀ c ∈ run, isTokenChar c = true) : ∃ shown later, qs = shown.map .kept ++ later ∧
      shown <+: run ∧ ∀ k, shown.length ≤ k → k < run.length → copyOf? qs k = none := by
  induction run generalizing ps qs with
  | nil => exact ⟨[], qs, rfl, List.prefix_rfl, by simp⟩
  | cons c run ih =>
    cases qs with
    | nil => simp at split
    | cons q qs =>
      cases q with
      | kept d =>
        obtain ⟨rfl, next⟩ : d = c ∧ sources qs = run ++ rest := by simpa [Piece.source] using split
        have joined : pairRule.Splits cs ((ps ++ [.kept d]) ++ qs) := by simpa using splits
        obtain ⟨shown, later, rfl, start, gone⟩ :=
          ih joined next fun e inside => token e (List.mem_cons_of_mem _ inside)
        refine ⟨d :: shown, later, rfl, (List.prefix_cons_inj d).mpr start, ?_⟩
        intro k reached short
        cases k with
        | zero => simp at reached
        | succ k =>
          rw [copyOf?, gone k (by simpa using reached) (by simpa using short), Option.map_none]
      | masked value =>
        refine ⟨[], _, rfl, List.nil_prefix, fun k _ short => copyOf?_masked ?_⟩
        obtain ⟨_, mark, -, matched⟩ := splits.matched_of_masked
        rw [sources_cons, Piece.source] at split
        have lengths := congrArg List.length split
        rw [split] at matched
        have reach := length_le_of_bare matched (List.cons_ne_nil _ _) token
        simp only [List.length_append] at lengths
        omega

/-- Where the first letter of the word is copied, the word and the blanks are, and then a first part
of the token. -/
theorem pieces_at_bearer (copied : copyOf? (pairRule.pieces 0 cs) before.length ≠ none)
    (split : cs = before ++ (word ++ blanks ++ (run ++ rest)))
    (named : word.map Char.toLower = "bearer".toList) (blank : ∀ c ∈ blanks, Text.isBlank c = true)
    (token : ∀ c ∈ run, isTokenChar c = true) : ∃ ps shown later,
      pairRule.pieces 0 cs = ps ++ ((word ++ blanks).map .kept ++ (shown.map .kept ++ later)) ∧
      sources ps = before ∧ shown <+: run ∧
      ∀ k, shown.length ≤ k → k < run.length → copyOf? (shown.map .kept ++ later) k = none := by
  have splits : pairRule.Splits cs (pairRule.pieces 0 cs) := splits_pieces pairRule_steady
  have whole := @sources_pairs cs
  obtain ⟨place, found⟩ := Option.ne_none_iff_exists'.mp copied
  obtain ⟨c, ps, qs, pieces, from_, -⟩ := copied_iff.mp found
  rw [pieces, sources_append, split] at whole
  obtain ⟨same, behind⟩ := List.append_inj whole from_
  rw [pieces] at splits
  obtain ⟨later, marked, left⟩ := word_copied splits behind named blank
  rw [marked, ← List.append_assoc] at splits
  obtain ⟨shown, later, rfl, start, gone⟩ := token_split splits left token
  exact ⟨ps, shown, later, by rw [pieces, marked], same, start, gone⟩

/-- A bearer token in a text loses its value, unless the first letter of its word is lost. -/
theorem bearer_replaced (named : word.map Char.toLower = "bearer".toList) (apart : blanks ≠ [])
    (blank : ∀ c ∈ blanks, Text.isBlank c = true) (filled : run ≠ [])
    (token : ∀ c ∈ run, isTokenChar c = true)
    (split : cs = before ++ (word ++ blanks ++ (run ++ rest))) :
    copyOf? (bearerRule.pieces 0 cs) before.length = none ∨ ∀ k < run.length,
      copyOf? (bearerRule.pieces 0 cs) (before.length + (word ++ blanks).length + k) = none := by
  have matched : bearerRule.match? (word ++ (blanks ++ (run ++ rest))) =
      some (run ++ rest, rest.dropWhile isTokenChar) :=
    match?_bearer named apart blank filled token
  have found : bearerRule.Finds cs before (word ++ blanks) (run ++ rest.takeWhile isTokenChar)
      (rest.dropWhile isTokenChar) :=
    ⟨by simp [split, List.takeWhile_append_dropWhile],
      by simpa [List.takeWhile_append_dropWhile] using matched⟩
  rcases (splits_pieces bearerRule_steady).value_masked bearerRule_steady found with gone | gone
  · exact .inl gone
  · refine .inr fun k inside => gone k ?_
    rw [List.length_append]
    omega

/-- A bearer token anywhere in a log is not copied, unless the first letter of its word is not. -/
theorem bearer_masked (masking : o.includeSensitiveData = false)
    (split : text.toList = before ++ (word ++ blanks ++ (run ++ after)))
    (named : word.map Char.toLower = "bearer".toList) (apart : blanks ≠ [])
    (blank : ∀ c ∈ blanks, Text.isBlank c = true) (token : ∀ c ∈ run, isTokenChar c = true) :
    Traced o text ∧ (keptAt? o text before.length = none ∨
      ∀ k < run.length, keptAt? o text (before.length + (word ++ blanks).length + k) = none) := by
  refine ⟨traced masking, ?_⟩
  by_cases lost : copyOf? (pairRule.pieces 0 text.toList) before.length = none
  · exact .inl (keptAt?_of_masked masking lost)
  · obtain ⟨ps, shown, later, pieces, rfl, start, gone⟩ :=
      pieces_at_bearer lost split named blank token
    have left : pairRule.mask 0 false text.toList =
        outputs ps ++ (word ++ blanks ++ (shown ++ outputs later)) := by
      rw [← outputs_pairs, pieces]
      simp
    have at_word : keptAt? o text (sources ps).length =
        copyOf? (bearerRule.pieces 0 (pairRule.mask 0 false text.toList)) (outputs ps).length := by
      have marked : 0 < (word ++ blanks).length := by
        rw [List.length_append]
        exact Nat.add_pos_right _ (List.length_pos_iff.mpr apart)
      have first := copyOf?_append ps ((word ++ blanks).map .kept ++ (shown.map .kept ++ later)) 0
      rw [copyOf?_kept marked, ← pieces, Nat.add_zero] at first
      rw [keptAt?, masking, if_neg (by decide), first]
      rfl
    have at_token (k : Nat) : keptAt? o text ((sources ps).length + (word ++ blanks).length + k) =
        (copyOf? (shown.map .kept ++ later) k).bind fun place =>
          copyOf? (bearerRule.pieces 0 (pairRule.mask 0 false text.toList))
            ((outputs ps).length + (word ++ blanks).length + place) := by
      rw [keptAt?, masking, if_neg (by decide), pieces, copyOf?_behind, Option.bind_map]
      rfl
    by_cases filled : shown = []
    · subst filled
      refine .inr fun k short => ?_
      rw [at_token, gone k (Nat.zero_le k) short, Option.bind_none]
    · have tokens : ∀ d ∈ shown, isTokenChar d = true :=
        fun d inside => token d (start.subset inside)
      rcases bearer_replaced named apart blank filled tokens left with masked | masked
      · exact .inl (at_word.trans masked)
      · refine .inr fun k short => ?_
        by_cases reached : shown.length ≤ k
        · rw [at_token, gone k reached short, Option.bind_none]
        · have inside : k < shown.length := Nat.lt_of_not_le reached
          rw [at_token, copyOf?_kept inside, Option.bind_some, masked k inside]

theorem bearer_masked_in_header :
    "GET: BEARER  a.b~c ok".toList =
        "GET: ".toList ++ ("BEARER".toList ++ "  ".toList ++ ("a.b~c".toList ++ " ok".toList)) ∧
      Traced ⟨[], [], "", false⟩ "GET: BEARER  a.b~c ok" ∧
      (keptAt? ⟨[], [], "", false⟩ "GET: BEARER  a.b~c ok" 5 = none ∨
        ∀ k < 5, keptAt? ⟨[], [], "", false⟩ "GET: BEARER  a.b~c ok" (5 + 8 + k) = none) :=
  have split : "GET: BEARER  a.b~c ok".toList =
      "GET: ".toList ++ ("BEARER".toList ++ "  ".toList ++ ("a.b~c".toList ++ " ok".toList)) := by
    decide
  ⟨split, bearer_masked rfl split (by decide) (by decide) (List.all_eq_true.mp (by decide))
    (List.all_eq_true.mp (by decide))⟩

/-- The word before a token is taken for the value of a pair, and then nothing marks the token. -/
theorem token_behind_header_name :
    let o : Options := ⟨[], [], "", false⟩
    let text := "X-Auth-Token: Bearer eyJhbGciOi.abc"
    text.toList = "X-Auth-Token: ".toList ++
        ("Bearer".toList ++ " ".toList ++ ("eyJhbGciOi.abc".toList ++ [])) ∧
      keptLog o text = "X-Auth-Token: REDACTED eyJhbGciOi.abc" ∧
      (List.range 14).map (fun k => keptAt? o text (21 + k)) =
        (List.range 14).map fun k => some (23 + k) := by
  refine ⟨by decide +kernel, by decide +kernel, by decide +kernel⟩

end Bearers
end MultiCluster.Gather
