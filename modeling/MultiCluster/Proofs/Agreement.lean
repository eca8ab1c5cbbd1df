import MultiCluster.Proofs.BlockText

/-! When a stored globalnet record agrees with the one that is wanted, and what is decided if it does
not. Ranges agree if they stand for the same thing, a network or else a text, so that agreement is an
equivalence however they are written. -/
namespace MultiCluster.Globalnet

section Ranges

variable {a b : String}

/-- Two ranges are the same network, or one of them is no network and they are the same text but for
the white space around it. -/
inductive Agree (a b : String) : Prop
  | network {block : Block} (first : Block.parse a = .ok block) (second : Block.parse b = .ok block)
  | text (unread : (∀ block, Block.parse a ≠ .ok block) ∨ ∀ block, Block.parse b ≠ .ok block)
    (same : Text.trim a = Text.trim b)

def standing (range : String) : Block ⊕ String :=
  match Block.parse range with
  | .ok block => .inl block
  | .error _ => .inr (Text.trim range)

theorem standing_of_parse {block : Block} (parsed : Block.parse a = .ok block) :
    standing a = .inl block := by
  rw [standing, parsed]

theorem standing_of_unread (unread : ∀ block, Block.parse a ≠ .ok block) :
    standing a = .inr (Text.trim a) := by
  unfold standing
  cases parsed : Block.parse a with
  | ok block => exact absurd parsed (unread block)
  | error e => rfl

theorem unread_of_trim (same : Text.trim a = Text.trim b)
    (unread : ∀ block, Block.parse a ≠ .ok block) : ∀ block, Block.parse b ≠ .ok block :=
  fun block parsed => unread block (Block.parse_of_trim same.symm parsed)

theorem agree_iff_standing : Agree a b ↔ standing a = standing b := by
  constructor
  · rintro (⟨first, second⟩ | ⟨unread, same⟩)
    · rw [standing_of_parse first, standing_of_parse second]
    · -- A text is no network whatever white space is around it, so neither range is one.
      have neither : (∀ block, Block.parse a ≠ .ok block) ∧ ∀ block, Block.parse b ≠ .ok block := by
        rcases unread with unread | unread
        · exact ⟨unread, unread_of_trim same unread⟩
        · exact ⟨unread_of_trim same.symm unread, unread⟩
      rw [standing_of_unread neither.1, standing_of_unread neither.2, same]
  · intro same
    by_cases read : ∃ block, Block.parse a = .ok block
    · obtain ⟨block, parsed⟩ := read
      rw [standing_of_parse parsed] at same
      cases second : Block.parse b with
      | ok other =>
        rw [standing_of_parse second] at same
        obtain rfl := Sum.inl.inj same
        exact .network parsed second
      | error e =>
        rw [standing, second] at same
        cases same
    · have unread := not_exists.mp read
      rw [standing_of_unread unread] at same
      cases second : Block.parse b with
      | ok other =>
        rw [standing_of_parse second] at same
        cases same
      | error e =>
        rw [standing, second] at same
        exact .text (.inl unread) (Sum.inr.inj same)

theorem agree_equivalence : Equivalence Agree where
  refl _ := agree_iff_standing.mpr rfl
  symm agree := agree_iff_standing.mpr (agree_iff_standing.mp agree).symm
  trans first second := agree_iff_standing.mpr
    ((agree_iff_standing.mp first).trans (agree_iff_standing.mp second))

theorem agree_iff_trim
    (unread : (∀ block, Block.parse a ≠ .ok block) ∨ ∀ block, Block.parse b ≠ .ok block) :
    Agree a b ↔ Text.trim a = Text.trim b := by
  constructor
  · rintro (⟨first, second⟩ | ⟨-, same⟩)
    · rcases unread with unread | unread
      · exact absurd first (unread _)
      · exact absurd second (unread _)
    · exact same
  · exact .text unread

theorem sameRange_iff : sameRange a b = true ↔ Agree a b := by
  unfold sameRange
  cases first : Block.parse a with
  | ok x =>
    cases second : Block.parse b with
    | ok y =>
      rw [agree_iff_standing, standing_of_parse first, standing_of_parse second, Sum.inl.injEq]
      exact decide_eq_true_iff
    | error e =>
      rw [agree_iff_trim (.inr fun block => by simp [second])]
      exact beq_iff_eq
  | error e =>
    rw [agree_iff_trim (.inl fun block => by simp [first])]
    exact beq_iff_eq

end Ranges

section Records

variable {e d : Record} {ns : String}

structure Matches (e d : Record) : Prop where
  flag : e.enabled = d.enabled
  range : Agree e.range d.range
  size : e.clusterSize = d.clusterSize

/-- No cluster has joined, and nothing was fixed yet or only the size differs. -/
inductive Replaceable (e d : Record) : Prop
  | placeholder (off : e.enabled = false) (unset : Text.trim e.range = "") (alone : e.clusters = [])
    (wanted : d.enabled = true)
  | resized (flag : e.enabled = d.enabled) (range : Agree e.range d.range)
    (size : e.clusterSize ≠ d.clusterSize) (alone : e.clusters = [])

theorem Replaceable.alone (replaceable : Replaceable e d) : e.clusters = [] := by
  cases replaceable <;> assumption

theorem Matches.not_replaceable (same : Matches e d) : ¬Replaceable e d := by
  rintro (⟨off, -, -, wanted⟩ | ⟨-, -, size, -⟩)
  · rw [same.flag, wanted] at off
    cases off
  · exact size same.size

theorem isPlaceholder_iff : e.isPlaceholder = true ↔
    e.enabled = false ∧ Text.trim e.range = "" ∧ e.clusters = [] := by
  rw [Record.isPlaceholder, Bool.and_eq_true, Bool.and_eq_true, Bool.not_eq_true',
    List.isEmpty_iff, Text.trim_eq_empty_iff, and_assoc]

/-- What is decided about a stored record. -/
theorem checkExisting_cases (e d : Record) (ns : String) :
    Replaceable e d ∧ checkExisting (some e) d ns = .ok .update ∨
    Matches e d ∧ checkExisting (some e) d ns = .ok .unchanged ∨
    (¬Replaceable e d ∧ ¬Matches e d) ∧
      ∃ m, checkExisting (some e) d ns = .error (.conflictingState ns m) := by
  unfold checkExisting
  by_cases fresh : e.isPlaceholder = true ∧ d.enabled = true
  · obtain ⟨off, unset, alone⟩ := isPlaceholder_iff.mp fresh.1
    refine .inl ⟨.placeholder off unset alone fresh.2, ?_⟩
    simp [fresh.1, fresh.2]
  · have settled : (e.isPlaceholder && d.enabled) = false := by
      simpa using fresh
    have replaceable_iff : Replaceable e d ↔ e.enabled = d.enabled ∧ Agree e.range d.range ∧
        e.clusterSize ≠ d.clusterSize ∧ e.clusters = [] := by
      constructor
      · rintro (⟨off, unset, alone, wanted⟩ | ⟨flag, range, size, alone⟩)
        · exact absurd ⟨isPlaceholder_iff.mpr ⟨off, unset, alone⟩, wanted⟩ fresh
        · exact ⟨flag, range, size, alone⟩
      · rintro ⟨flag, range, size, alone⟩
        exact .resized flag range size alone
    simp only [settled, Bool.false_eq_true, if_false]
    by_cases flag : e.enabled = d.enabled
    · by_cases range : Agree e.range d.range
      · have sameRange : sameRange e.range d.range = true := sameRange_iff.mpr range
        by_cases size : e.clusterSize = d.clusterSize
        · refine .inr (.inl ⟨⟨flag, range, size⟩, ?_⟩)
          simp [flag, sameRange, size]
        · by_cases alone : e.clusters = []
          · refine .inl ⟨.resized flag range size alone, ?_⟩
            simp [flag, sameRange, size, alone]
          · refine .inr (.inr ⟨⟨?_, fun same => size same.size⟩, ?_⟩)
            · intro replaceable
              exact alone replaceable.alone
            · simp [flag, sameRange, size, alone]
      · have otherRange : sameRange e.range d.range = false := by
          rwa [← Bool.not_eq_true, sameRange_iff]
        refine .inr (.inr ⟨⟨?_, fun same => range same.range⟩, ?_⟩)
        · intro replaceable
          exact range (replaceable_iff.mp replaceable).2.1
        · simp [flag, otherRange]
    · refine .inr (.inr ⟨⟨?_, fun same => flag same.flag⟩, ?_⟩)
      · intro replaceable
        exact flag (replaceable_iff.mp replaceable).1
      · simp [flag]

theorem checkExisting_update_iff :
    checkExisting (some e) d ns = .ok .update ↔ Replaceable e d := by
  rcases checkExisting_cases e d ns with ⟨replaceable, verdict⟩ | ⟨same, verdict⟩ |
    ⟨⟨fixed, -⟩, m, verdict⟩
  · simp [verdict, replaceable]
  · simp [verdict, same.not_replaceable]
  · simp [verdict, fixed]

theorem checkExisting_unchanged_iff :
    checkExisting (some e) d ns = .ok .unchanged ↔ Matches e d := by
  rcases checkExisting_cases e d ns with ⟨replaceable, verdict⟩ | ⟨same, verdict⟩ |
    ⟨⟨-, other⟩, m, verdict⟩
  · have other : ¬Matches e d := fun same => same.not_replaceable replaceable
    simp [verdict, other]
  · simp [verdict, same]
  · simp [verdict, other]

theorem checkExisting_ne_create : checkExisting (some e) d ns ≠ .ok .create := by
  rcases checkExisting_cases e d ns with ⟨-, verdict⟩ | ⟨-, verdict⟩ | ⟨-, m, verdict⟩
  · simp [verdict]
  · simp [verdict]
  · simp [verdict]

/-- Members do not keep a record from agreeing with the one that is wanted. -/
theorem checkExisting_self {members : List Allocation} :
    checkExisting (some { d with clusters := members }) d ns = .ok .unchanged :=
  checkExisting_unchanged_iff.mpr ⟨rfl, agree_equivalence.refl _, rfl⟩

end Records

end MultiCluster.Globalnet
