import Mathlib.Data.List.Forall2
import MultiCluster.Gather.Pattern

/-! What patterns match. The text before a rest is made of characters that the classes of the
pattern accept, repetition reaches as far as its class does, and a text that begins with letters of
a word matches it in any case. -/
namespace MultiCluster.Gather.Pattern

variable {accepts : Char → Bool} {ok : Char → Prop} {p q : Pattern} {c letter : Char}
  {cs rest run letters : List Char}

theorem mem_runs {longer : List (List Char)} : rest ∈ runs accepts longer cs ↔
    rest ∈ longer ∨ ∃ run, cs = run ++ rest ∧ ∀ c ∈ run, accepts c = true := by
  induction cs generalizing longer with
  | nil =>
    simp only [runs, List.mem_cons, List.nil_eq, List.append_eq_nil_iff]
    constructor
    · rintro (rfl | member)
      · exact .inr ⟨[], ⟨rfl, rfl⟩, by simp⟩
      · exact .inl member
    · rintro (member | ⟨_, ⟨rfl, rfl⟩, _⟩)
      · exact .inr member
      · exact .inl rfl
  | cons c later ih =>
    have here : rest = c :: later →
        ∃ run, c :: later = run ++ rest ∧ ∀ d ∈ run, accepts d = true :=
      fun same => ⟨[], same.symm, by simp⟩
    by_cases accepted : accepts c = true
    · rw [runs, if_pos accepted, ih, List.mem_cons]
      constructor
      · rintro ((same | member) | ⟨run, rfl, all⟩)
        · exact .inr (here same)
        · exact .inl member
        · exact .inr ⟨c :: run, rfl, List.forall_mem_cons.mpr ⟨accepted, all⟩⟩
      · rintro (member | ⟨_ | ⟨d, run⟩, same, all⟩)
        · exact .inl (.inr member)
        · exact .inl (.inl same.symm)
        · exact .inr ⟨run, (List.cons.inj same).2,
            fun e inside => all e (List.mem_cons_of_mem _ inside)⟩
    · rw [runs, if_neg accepted, List.mem_cons]
      constructor
      · rintro (same | member)
        · exact .inr (here same)
        · exact .inl member
      · rintro (member | ⟨_ | ⟨d, run⟩, same, all⟩)
        · exact .inr member
        · exact .inl same.symm
        · obtain ⟨rfl, -⟩ := List.cons.inj same
          exact absurd (all _ List.mem_cons_self) accepted

theorem head?_runs {longer : List (List Char)} :
    (runs accepts longer cs).head? = Option.some (cs.dropWhile accepts) := by
  induction cs generalizing longer with
  | nil => rfl
  | cons c later ih =>
    by_cases accepted : accepts c = true
    · rw [runs, if_pos accepted, ih, List.dropWhile_cons_of_pos accepted]
    · rw [runs, if_neg accepted, List.dropWhile_cons_of_neg accepted, List.head?_cons]

theorem mem_rests_one : rest ∈ (one accepts).rests cs ↔ ∃ c, cs = c :: rest ∧ accepts c = true := by
  cases cs with
  | nil => simp [rests]
  | cons c later =>
    simp only [rests, List.cons.injEq]
    constructor
    · intro member
      by_cases accepted : accepts c = true
      · rw [if_pos accepted, List.mem_singleton] at member
        exact ⟨c, ⟨rfl, member.symm⟩, accepted⟩
      · simp [accepted] at member
    · rintro ⟨_, ⟨rfl, rfl⟩, accepted⟩
      simp [accepted]

theorem mem_rests_many : rest ∈ (many accepts).rests cs ↔
    ∃ run, cs = run ++ rest ∧ ∀ c ∈ run, accepts c = true := by
  simp [rests, mem_runs]

theorem mem_rests_optional : rest ∈ (optional p).rests cs ↔ rest ∈ p.rests cs ∨ rest = cs := by
  simp [rests]

theorem mem_rests_append : rest ∈ (append p q).rests cs ↔
    ∃ middle ∈ p.rests cs, rest ∈ q.rests middle := by
  simp [rests]

theorem mem_rests_either :
    rest ∈ (either p q).rests cs ↔ rest ∈ p.rests cs ∨ rest ∈ q.rests cs := by
  simp [rests]

theorem mem_rests_some : rest ∈ (some accepts).rests cs ↔
    ∃ run, cs = run ++ rest ∧ run ≠ [] ∧ ∀ c ∈ run, accepts c = true := by
  simp only [some, mem_rests_append, mem_rests_one, mem_rests_many]
  constructor
  · rintro ⟨_, ⟨c, rfl, accepted⟩, run, rfl, all⟩
    exact ⟨c :: run, rfl, List.cons_ne_nil _ _, List.forall_mem_cons.mpr ⟨accepted, all⟩⟩
  · rintro ⟨_ | ⟨c, run⟩, rfl, filled, all⟩
    · exact absurd rfl filled
    · obtain ⟨accepted, others⟩ := List.forall_mem_cons.mp all
      exact ⟨run ++ rest, ⟨c, rfl, accepted⟩, run, rfl, others⟩

/-- Repetition that needs one character prefers all there are. -/
theorem head?_rests_some (accepted : accepts c = true) :
    ((some accepts).rests (c :: cs)).head? = Option.some (cs.dropWhile accepts) := by
  simp only [some, rests, accepted, if_true, List.flatMap_cons, List.flatMap_nil, List.append_nil]
  exact head?_runs

theorem rests_some_of_not (refused : accepts c = false) : (some accepts).rests (c :: cs) = [] := by
  simp [some, rests, refused]

def Over (ok : Char → Prop) : Pattern → Prop
  | .one accepts => ∀ c, accepts c = true → ok c
  | .many accepts => ∀ c, accepts c = true → ok c
  | .optional p => p.Over ok
  | .append p q => p.Over ok ∧ q.Over ok
  | .either p q => p.Over ok ∧ q.Over ok

theorem run_of_mem_rests (ranged : p.Over ok) (member : rest ∈ p.rests cs) :
    ∃ run, cs = run ++ rest ∧ ∀ c ∈ run, ok c := by
  induction p generalizing cs rest with
  | one accepts =>
    obtain ⟨c, rfl, accepted⟩ := mem_rests_one.mp member
    exact ⟨[c], rfl, by simpa using ranged c accepted⟩
  | many accepts =>
    obtain ⟨run, rfl, all⟩ := mem_rests_many.mp member
    exact ⟨run, rfl, fun c inside => ranged c (all c inside)⟩
  | optional p ih =>
    rcases mem_rests_optional.mp member with matched | rfl
    · exact ih ranged matched
    · exact ⟨[], rfl, by simp⟩
  | append p q ihp ihq =>
    obtain ⟨middle, first, second⟩ := mem_rests_append.mp member
    obtain ⟨run, rfl, all⟩ := ihp ranged.1 first
    obtain ⟨run', rfl, all'⟩ := ihq ranged.2 second
    exact ⟨run ++ run', by simp, List.forall_mem_append.mpr ⟨all, all'⟩⟩
  | either p q ihp ihq =>
    rcases mem_rests_either.mp member with matched | matched
    · exact ihp ranged.1 matched
    · exact ihq ranged.2 matched

theorem over_word (each : ∀ letter ∈ letters, ∀ c, isLetter letter c = true → ok c) :
    (word letters).Over ok := by
  induction letters with
  | nil => exact fun _ impossible => by cases impossible
  | cons letter later ih =>
    obtain ⟨first, others⟩ := List.forall_mem_cons.mp each
    cases later with
    | nil => exact first
    | cons _ _ => exact ⟨first, ih others⟩

theorem over_sequence {ps : List Pattern} (each : ∀ p ∈ ps, p.Over ok) : (sequence ps).Over ok := by
  induction ps with
  | nil => exact fun _ impossible => by cases impossible
  | cons p later ih =>
    obtain ⟨first, others⟩ := List.forall_mem_cons.mp each
    cases later with
    | nil => exact first
    | cons _ _ => exact ⟨first, ih others⟩

theorem over_choice {ps : List Pattern} (each : ∀ p ∈ ps, p.Over ok) : (choice ps).Over ok := by
  induction ps with
  | nil => exact fun _ impossible => by cases impossible
  | cons p later ih =>
    obtain ⟨first, others⟩ := List.forall_mem_cons.mp each
    cases later with
    | nil => exact first
    | cons _ _ => exact ⟨first, ih others⟩

theorem over_true (p : Pattern) : p.Over fun _ => True := by
  induction p with
  | one _ => exact fun _ _ => trivial
  | many _ => exact fun _ _ => trivial
  | optional _ ih => exact ih
  | append _ _ ihp ihq => exact ⟨ihp, ihq⟩
  | either _ _ ihp ihq => exact ⟨ihp, ihq⟩

theorem suffix_of_mem_rests (member : rest ∈ p.rests cs) : rest <:+ cs := by
  obtain ⟨run, rfl, -⟩ := run_of_mem_rests p.over_true member
  exact List.suffix_append run rest

def consumes : Pattern → Bool
  | .one _ => true
  | .many _ => false
  | .optional _ => false
  | .append p q => p.consumes || q.consumes
  | .either p q => p.consumes && q.consumes

theorem length_lt_of_mem_rests (takes : p.consumes = true) (member : rest ∈ p.rests cs) :
    rest.length < cs.length := by
  induction p generalizing cs rest with
  | one accepts =>
    obtain ⟨c, rfl, -⟩ := mem_rests_one.mp member
    simp
  | many accepts => simp [consumes] at takes
  | optional p ih => simp [consumes] at takes
  | append p q ihp ihq =>
    obtain ⟨middle, first, second⟩ := mem_rests_append.mp member
    have before := (suffix_of_mem_rests first).length_le
    have behind := (suffix_of_mem_rests second).length_le
    rcases Bool.or_eq_true_iff.mp takes with takes | takes
    · exact Nat.lt_of_le_of_lt behind (ihp takes first)
    · exact Nat.lt_of_lt_of_le (ihq takes second) before
  | either p q ihp ihq =>
    obtain ⟨left, right⟩ := Bool.and_eq_true_iff.mp takes
    rcases mem_rests_either.mp member with matched | matched
    · exact ihp left matched
    · exact ihq right matched

theorem mem_rests_word_cons : rest ∈ (word (letter :: letters)).rests cs ↔
    ∃ c later, cs = c :: later ∧ isLetter letter c = true ∧ rest ∈ (word letters).rests later := by
  cases letters with
  | nil =>
    simp only [word, mem_rests_one, mem_rests_many]
    constructor
    · rintro ⟨c, rfl, accepted⟩
      exact ⟨c, rest, rfl, accepted, [], rfl, by simp⟩
    · rintro ⟨c, later, rfl, accepted, _ | ⟨d, run⟩, rfl, all⟩
      · exact ⟨c, rfl, accepted⟩
      · cases all d List.mem_cons_self
  | cons _ _ =>
    simp only [word, mem_rests_append, mem_rests_one]
    constructor
    · rintro ⟨later, ⟨c, rfl, accepted⟩, matched⟩
      exact ⟨c, later, rfl, accepted, matched⟩
    · rintro ⟨c, later, rfl, accepted, matched⟩
      exact ⟨later, ⟨c, rfl, accepted⟩, matched⟩

theorem mem_rests_word : rest ∈ (word letters).rests cs ↔
    ∃ run, cs = run ++ rest ∧ List.Forall₂ (isLetter · · = true) letters run := by
  induction letters generalizing cs with
  | nil =>
    simp only [word, mem_rests_many, List.forall₂_nil_left_iff]
    constructor
    · rintro ⟨_ | ⟨d, run⟩, same, all⟩
      · exact ⟨[], same, rfl⟩
      · cases all d List.mem_cons_self
    · rintro ⟨run, same, rfl⟩
      exact ⟨[], same, by simp⟩
  | cons letter later ih =>
    rw [mem_rests_word_cons]
    constructor
    · rintro ⟨c, later, rfl, accepted, matched⟩
      obtain ⟨run, rfl, all⟩ := ih.mp matched
      exact ⟨c :: run, rfl, .cons accepted all⟩
    · rintro ⟨_, rfl, _ | ⟨accepted, all⟩⟩
      exact ⟨_, _, rfl, accepted, ih.mpr ⟨_, rfl, all⟩⟩

/-- Letters that stand for themselves alone match in both cases and nothing else. -/
theorem forall₂_isLetter_iff (plain : ∀ l ∈ letters, l ≠ 'k' ∧ l ≠ 's') :
    List.Forall₂ (isLetter · · = true) letters run ↔ run.map Char.toLower = letters := by
  induction letters generalizing run with
  | nil => simp
  | cons letter later ih =>
    obtain ⟨⟨noK, noS⟩, others⟩ := List.forall_mem_cons.mp plain
    cases run with
    | nil => simp
    | cons c run =>
      rw [List.forall₂_cons, List.map_cons, List.cons.injEq, ih others]
      simp [isLetter, noK, noS]

end MultiCluster.Gather.Pattern
