import MultiCluster.Proofs.Masking
import MultiCluster.Proofs.PairMasking

/-! Which keys logs and objects take for the name of a credential. A log is read as it stands, so a
name stands in a key in one piece; of a key of an object only the letters and digits count, and the
short form of a password is no name to it. Where a key is read alike, a pair in a log and a field of
an object lose their values together. -/
namespace MultiCluster.Gather

open Json Pattern

variable {o : Options} {key value word kind : String} {cs run part : List Char} {v : Json}
  {q : Place}

section Keys

theorem occursIn_iff : Text.occursIn part cs = true ↔ part <:+: cs := by
  induction cs with
  | nil => simp [Text.occursIn, List.isEmpty_iff]
  | cons c cs ih =>
    rw [Text.occursIn, Bool.or_eq_true, List.isPrefixOf_iff_prefix, ih, List.infix_cons_iff]

def Spells (key : String) : Prop :=
  ∃ f ∈ sensitiveFragments, f.toList <:+: (Text.lower key).toList.filter Char.isAlphanum

theorem isSensitiveKey_iff :
    isSensitiveKey key = true ↔ Text.lower key ∉ publicKeys ∧ Spells key := by
  simp [isSensitiveKey, Spells, occursIn_iff]

def HoldsName (key : String) : Prop :=
  ∃ word ∈ credentialWords, word ≠ "passwd" ∧ Mentions word key.toList

/-- Logs and objects read a key alike: the short form of a password does not stand alone in it, and
a name that its letters spell is not broken. -/
structure ReadAlike (key : String) : Prop where
  named : Mentions "passwd" key.toList → Spells key
  unbroken : Spells key → HoldsName key ∨ Mentions "passwd" key.toList

/-- A character of a key that is its own letter: neither the long s nor the Kelvin sign. -/
def isPlainKeyChar (c : Char) : Bool := isKeyChar c && c != '\u017f' && c != '\u212a'

theorem map_toLower_of_spelled {letters : List Char} (plain : ∀ c ∈ run, isPlainKeyChar c = true)
    (spelled : List.Forall₂ (isLetter · · = true) letters run) :
    run.map Char.toLower = letters := by
  induction spelled with
  | nil => rfl
  | @cons letter c letters run accepted _ ih =>
    obtain ⟨first, others⟩ := List.forall_mem_cons.mp plain
    simp only [isPlainKeyChar, Bool.and_eq_true, bne_iff_ne] at first
    have same : c.toLower = letter := by simpa [isLetter, first.1.2, first.2] using accepted
    rw [List.map_cons, same, ih others]

/-- What stands in a key in one piece is spelled by its letters. -/
theorem HoldsName.spells (plain : ∀ c ∈ key.toList, isPlainKeyChar c = true)
    (holds : HoldsName key) : Spells key := by
  obtain ⟨word, listed, other, run, inside, spelled⟩ := holds
  have known : ∀ word ∈ credentialWords, word ≠ "passwd" →
      ∃ f ∈ sensitiveFragments, f.toList = word.toList.filter Char.isAlphanum := by decide
  obtain ⟨f, fragment, same⟩ := known word listed other
  refine ⟨f, fragment, ?_⟩
  rw [same, ← map_toLower_of_spelled (fun c member => plain c (inside.subset member)) spelled]
  simpa [Text.lower] using (inside.map Char.toLower).filter Char.isAlphanum

theorem namesCredential_iff : NamesCredential key.toList ↔
    HoldsName key ∨ Mentions "passwd" key.toList := by
  constructor
  · rintro ⟨word, listed, mentions⟩
    by_cases same : word = "passwd"
    · exact .inr (same ▸ mentions)
    · exact .inl ⟨word, listed, same, mentions⟩
  · rintro (⟨word, listed, -, mentions⟩ | mentions)
    · exact ⟨word, listed, mentions⟩
    · exact ⟨"passwd", by decide, mentions⟩

theorem readAlike_iff (plain : ∀ c ∈ key.toList, isPlainKeyChar c = true)
    (unlisted : Text.lower key ∉ publicKeys) :
    ReadAlike key ↔ (NamesCredential key.toList ↔ isSensitiveKey key = true) := by
  rw [isSensitiveKey_iff, namesCredential_iff]
  constructor
  · intro alike
    constructor
    · rintro (holds | short)
      · exact ⟨unlisted, holds.spells plain⟩
      · exact ⟨unlisted, alike.named short⟩
    · rintro ⟨-, spells⟩
      exact alike.unbroken spells
  · intro same
    exact ⟨fun short => (same.mp (.inr short)).2, fun spells => same.mpr ⟨unlisted, spells⟩⟩

end Keys

section Fields

structure ByNameAlone (kind : String) (v : Json) (q : Place) (key : String) : Prop where
  kept : ∀ p, p <+: q ++ [.key key] → ¬ Rewritten kind p
  alone : key = "value" → ∀ name, v.below? (q ++ [.key "name"]) = some (.str name) →
    isSensitiveKey name = false

theorem below?_redacted_field (byName : ByNameAlone kind v q key)
    (text : v.below? (q ++ [.key key]) = some (.str value)) :
    (redactResource kind v).below? (q ++ [.key key]) =
      some (.str (if isSensitiveKey key then redacted else value)) := by
  -- Of the places on the way only the last can be concealed, since it holds a text.
  have onWay {p : Place} (before : p <+: q ++ [.key key])
      (apart : Concealed kind v p ∨ p = appliedPlace) :
      p = q ++ [.key key] ∧ Sensitive v p := by
    rcases apart with (sensitive | secret) | applied
    · exact ⟨sensitive.whole before text, sensitive⟩
    · exact absurd (.inl secret) (byName.kept p before)
    · exact absurd (.inr applied) (byName.kept p before)
  by_cases named : isSensitiveKey key = true
  · rw [if_pos named]
    have above : ∀ p, p <+: q → ¬ (Concealed kind v p ∨ p = appliedPlace) := by
      intro p before apart
      have short := before.length_le
      rw [(onWay (before.trans (List.prefix_append ..)) apart).1] at short
      simp at short
    have present := agree_redactResource.isSome_key (k := key) above
    rw [text] at present
    obtain ⟨u, held⟩ := Option.isSome_iff_exists.mp present.symm
    rw [held, redacted_of_concealed (.inl (.inl (.underKey named text))) held]
  · rw [if_neg named]
    refine agree_redactResource.text (fun p before apart => ?_) text
    obtain ⟨rfl, sensitive⟩ := onWay before apart
    generalize place : q ++ [Turn.key key] = p at sensitive
    cases sensitive with
    | underKey named' _ =>
      obtain ⟨-, same⟩ := List.append_inj' place rfl
      obtain rfl : key = _ := by simpa using same
      exact named named'
    | besideName named' name _ =>
      obtain ⟨rfl, same⟩ := List.append_inj' place rfl
      have refused := byName.alone (by simpa using same) _ name
      rw [named'] at refused
      cases refused

end Fields

section Pairs

/-- A key and a word with a sign between them name a credential only in the key. -/
theorem mask_pairs_of_unnamed {key value : List Char} (plain : ∀ c ∈ value, isKeyChar c = true)
    (unnamed : ¬ NamesCredential key) :
    pairRule.mask 0 false (key ++ '=' :: value) = key ++ '=' :: value := by
  refine mask_of_quiet pairRule_steady fun front back split _ => ?_
  cases matched : pairRule.match? back with
  | none => rfl
  | some found =>
    exfalso
    obtain ⟨key', c, later, rfl, -, named, other⟩ := key_of_match matched
    have inside : key' <:+: key := by
      rw [← List.append_assoc] at split
      rcases List.append_eq_append_iff.mp split with ⟨behind, same, tail⟩ | ⟨behind, rfl, -⟩
      · cases behind with
        | nil =>
          rw [List.append_nil] at same
          exact same ▸ (List.suffix_append front key').isInfix
        | cons d behind =>
          obtain ⟨-, rfl⟩ := List.cons.inj tail
          have refused := plain c (by simp)
          rw [other] at refused
          cases refused
      · exact List.infix_append ..
    exact unnamed (named.mono inside)

theorem mask_pairs_of_named {key value : List Char} (keys : ∀ c ∈ key, isKeyChar c = true)
    (filled : value ≠ []) (plain : ∀ c ∈ value, isKeyChar c = true) (named : NamesCredential key) :
    pairRule.mask 0 false (key ++ '=' :: value) = key ++ '=' :: redacted.toList := by
  have separated : Separation ['='] := by
    refine Separation.around [] [] [] '=' ?_ ?_ ?_ ?_
    all_goals simp
  have taken : (pairRule.value.rests (value ++ [])).head? = Option.some [] :=
    taken_of_bare filled (fun c member => isBareChar_of_isKeyChar (plain c member)) (by simp)
  have quiet : ¬ NamesCredential [] := by decide
  have masked := mask_pair quiet keys named separated taken
  have done : pairRule.mask 0 false [] = [] := rfl
  rw [done, List.append_nil, List.append_nil] at masked
  exact masked

/-- No bearer token is marked in a key and a word with a sign between them. -/
theorem mask_bearers_of_pair {key value : List Char} (keys : ∀ c ∈ key, isKeyChar c = true)
    (plain : ∀ c ∈ value, isKeyChar c = true) :
    bearerRule.mask 0 false (key ++ '=' :: value) = key ++ '=' :: value := by
  apply mask_bearers_of_visible
  rw [List.forall_mem_append, List.forall_mem_cons]
  exact ⟨fun c member => not_isBlank_of_isKeyChar (keys c member), by decide,
    fun c member => not_isBlank_of_isKeyChar (plain c member)⟩

theorem redactLog_pair (keys : ∀ c ∈ key.toList, isKeyChar c = true) (filled : value.toList ≠ [])
    (plain : ∀ c ∈ value.toList, isKeyChar c = true) :
    redactLog (key ++ "=" ++ value) =
      key ++ "=" ++ (if NamesCredential key.toList then redacted else value) := by
  have text (value : String) :
      (key ++ "=" ++ value).toList = key.toList ++ '=' :: value.toList := by
    simp
  rw [redactLog, text]
  by_cases named : NamesCredential key.toList
  · rw [mask_pairs_of_named keys filled plain named,
      mask_bearers_of_pair keys (List.all_eq_true.mp (by decide)), if_pos named, ← text,
      String.ofList_toList]
  · rw [mask_pairs_of_unnamed plain named, mask_bearers_of_pair keys plain, if_neg named, ← text,
      String.ofList_toList]

/-- A field of an object loses its text just if its key is sensitive. The pair of the key and the
text in a log does just if the key is read alike. -/
theorem masked_alike_iff (masking : o.includeSensitiveData = false)
    (plain : ∀ c ∈ key.toList, isPlainKeyChar c = true)
    (unlisted : Text.lower key ∉ publicKeys) (filled : value.toList ≠ [])
    (word : ∀ c ∈ value.toList, isKeyChar c = true) (other : value ≠ redacted)
    (byName : ByNameAlone kind v q key)
    (text : v.below? (q ++ [.key key]) = some (.str value)) :
    (keptResource o kind v).below? (q ++ [.key key]) =
        some (.str (if isSensitiveKey key then redacted else value)) ∧
      (keptLog o (key ++ "=" ++ value) =
          key ++ "=" ++ (if isSensitiveKey key then redacted else value) ↔ ReadAlike key) := by
  have included : ¬ o.includeSensitiveData = true := by simp [masking]
  have keys : ∀ c ∈ key.toList, isKeyChar c = true := by
    intro c member
    have each := plain c member
    simp only [isPlainKeyChar, Bool.and_eq_true] at each
    exact each.1.1
  rw [keptResource, keptLog, if_neg included, if_neg included]
  refine ⟨below?_redacted_field byName text, ?_⟩
  rw [redactLog_pair keys filled word, readAlike_iff plain unlisted]
  by_cases named : NamesCredential key.toList <;>
    by_cases sensitive : isSensitiveKey key = true <;>
      simp [named, sensitive, other, Ne.symm other]

def settingsWithToken : Json := .obj [("data", .obj [("api_token", .str "hunter2")])]

theorem masked_alike_token :
    let o : Options := ⟨[], [], "", false⟩
    (o.includeSensitiveData = false ∧ (∀ c ∈ "api_token".toList, isPlainKeyChar c = true) ∧
      Text.lower "api_token" ∉ publicKeys ∧ "hunter2".toList ≠ [] ∧
      (∀ c ∈ "hunter2".toList, isKeyChar c = true) ∧ "hunter2" ≠ redacted ∧
      ByNameAlone "ConfigMap" settingsWithToken [.key "data"] "api_token" ∧
      settingsWithToken.below? [.key "data", .key "api_token"] = some (.str "hunter2")) ∧
    ReadAlike "api_token" ∧
    (keptResource o "ConfigMap" settingsWithToken).below? [.key "data", .key "api_token"] =
      some (.str redacted) ∧
    keptLog o ("api_token" ++ "=" ++ "hunter2") = "api_token" ++ "=" ++ redacted :=
  have plain : ∀ c ∈ "api_token".toList, isPlainKeyChar c = true :=
    List.all_eq_true.mp (by decide)
  have word : ∀ c ∈ "hunter2".toList, isKeyChar c = true := List.all_eq_true.mp (by decide)
  have byName : ByNameAlone "ConfigMap" settingsWithToken [.key "data"] "api_token" :=
    { kept := by
        rintro p before (⟨secret, -⟩ | rfl)
        · exact absurd secret (by decide)
        · exact absurd before.length_le (by decide)
      alone := fun same => absurd same (by decide) }
  have alike : ReadAlike "api_token" :=
    { named := fun short => absurd short (by decide)
      unbroken := fun _ => .inl ⟨"token", by decide, by decide, by decide⟩ }
  have sensitive : isSensitiveKey "api_token" = true := by decide
  have kept := masked_alike_iff (o := ⟨[], [], "", false⟩) rfl plain (by decide) (by decide) word
    (by decide) byName rfl
  ⟨⟨rfl, plain, by decide, by decide, word, by decide, byName, rfl⟩, alike,
    by simpa [sensitive] using kept.1, by simpa [sensitive] using kept.2.mpr alike⟩

/-- A name that is broken by a dash is missed in logs, and the short form of a password in
objects. -/
theorem masked_apart :
    let o : Options := ⟨[], [], "", false⟩
    (isSensitiveKey "private-key" = true ∧
      keptResource o "ConfigMap" (.obj [("private-key", .str "hunter2")]) =
        .obj [("private-key", .str redacted)] ∧
      keptLog o "private-key=hunter2" = "private-key=hunter2") ∧
    (Text.lower "passwd" ∉ publicKeys ∧ isSensitiveKey "passwd" = false ∧
      keptResource o "ConfigMap" (.obj [("passwd", .str "hunter2")]) =
        .obj [("passwd", .str "hunter2")] ∧
      keptLog o "passwd=hunter2" = "passwd=REDACTED") := by
  refine ⟨⟨by decide, by decide +kernel, by decide +kernel⟩,
    ⟨by decide, by decide, by decide +kernel, by decide +kernel⟩⟩

end Pairs

end MultiCluster.Gather
