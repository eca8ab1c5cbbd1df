import Mathlib.Order.Basic
import MultiCluster.Gather.Collection
import MultiCluster.Proofs.Patterns

/-! What a rule replaces in a text. The text falls into pieces, characters that are copied and
values that are replaced, and every character is followed to where it is copied to. Of a rule whose
matches cannot begin inside one another's marks, every value that can be matched anywhere is
replaced, unless its mark begins in a value that is. -/
namespace MultiCluster.Gather

inductive Piece where
  | kept (c : Char)
  | masked (value : List Char)
  deriving DecidableEq, Repr

namespace Piece

def source : Piece → List Char
  | .kept c => [c]
  | .masked value => value

def output : Piece → List Char
  | .kept c => [c]
  | .masked _ => redacted.toList

end Piece

def sources (ps : List Piece) : List Char := ps.flatMap Piece.source

def outputs (ps : List Piece) : List Char := ps.flatMap Piece.output

def copyOf? : List Piece → Nat → Option Nat
  | [], _ => none
  | .kept _ :: _, 0 => some 0
  | .kept _ :: ps, i + 1 => (copyOf? ps i).map (· + 1)
  | .masked value :: ps, i =>
    if i < value.length then none
    else (copyOf? ps (i - value.length)).map (· + redacted.toList.length)

/-- The pieces of a text, of which `skip` characters have been matched already. -/
def Rule.pieces (r : Rule) : Nat → List Char → List Piece
  | _, [] => []
  | skip + 1, _ :: rest => r.pieces skip rest
  | 0, c :: rest =>
    match r.match? (c :: rest) with
    | some (afterMark, afterValue) =>
      ((c :: rest).take (rest.length + 1 - afterMark.length)).map .kept ++
        .masked (afterMark.take (afterMark.length - afterValue.length)) ::
          r.pieces (rest.length - afterValue.length) rest
    | none => .kept c :: r.pieces 0 rest

variable {r : Rule} {cs rest mark value before after : List Char} {ps qs : List Piece} {c : Char}
  {i j skip : Nat} {failed : Bool}

section Pieces

@[simp] theorem sources_nil : sources [] = [] := rfl

@[simp] theorem sources_cons {p : Piece} : sources (p :: ps) = p.source ++ sources ps := by
  simp [sources]

@[simp] theorem sources_append : sources (ps ++ qs) = sources ps ++ sources qs := by
  simp [sources]

@[simp] theorem sources_kept : sources (cs.map .kept) = cs := by
  induction cs with
  | nil => rfl
  | cons c rest ih => simp [Piece.source, ih]

@[simp] theorem outputs_nil : outputs [] = [] := rfl

@[simp] theorem outputs_cons {p : Piece} : outputs (p :: ps) = p.output ++ outputs ps := by
  simp [outputs]

@[simp] theorem outputs_append : outputs (ps ++ qs) = outputs ps ++ outputs qs := by
  simp [outputs]

@[simp] theorem outputs_kept : outputs (cs.map .kept) = cs := by
  induction cs with
  | nil => rfl
  | cons c rest ih => simp [Piece.output, ih]

theorem copyOf?_append (ps qs : List Piece) (i : Nat) :
    copyOf? (ps ++ qs) ((sources ps).length + i) =
      (copyOf? qs i).map ((outputs ps).length + ·) := by
  induction ps with
  | nil => simp
  | cons p ps ih =>
    cases p with
    | kept c =>
      have shift : (sources (.kept c :: ps)).length + i = (sources ps).length + i + 1 := by
        simp [Piece.source]
        omega
      rw [shift, List.cons_append, copyOf?, ih, Option.map_map]
      congr 1
      funext j
      simp [Piece.output]
      omega
    | masked value =>
      have shift : (sources (.masked value :: ps)).length + i =
          value.length + ((sources ps).length + i) := by
        simp [Piece.source]
        omega
      rw [shift, List.cons_append, copyOf?, if_neg (by omega), Nat.add_sub_cancel_left, ih,
        Option.map_map]
      congr 1
      funext j
      simp [Piece.output]
      omega

theorem copyOf?_kept (inside : i < cs.length) : copyOf? (cs.map .kept ++ ps) i = some i := by
  induction cs generalizing i with
  | nil => simp at inside
  | cons c rest ih =>
    cases i with
    | zero => rfl
    | succ i =>
      rw [List.map_cons, List.cons_append, copyOf?, ih (by simpa using inside), Option.map_some]

/-- Behind characters that are copied, places only shift. -/
theorem copyOf?_behind (ps qs : List Piece) (cs : List Char) (i : Nat) :
    copyOf? (ps ++ (cs.map .kept ++ qs)) ((sources ps).length + cs.length + i) =
      (copyOf? qs i).map ((outputs ps).length + cs.length + ·) := by
  have shift := copyOf?_append (ps ++ cs.map .kept) qs i
  simpa using shift

theorem copyOf?_masked (inside : i < value.length) : copyOf? (.masked value :: ps) i = none := by
  rw [copyOf?, if_pos inside]

/-- What is copied stands among the pieces. -/
theorem copied_iff : copyOf? ps i = some j ↔ ∃ c ps₁ ps₂, ps = ps₁ ++ .kept c :: ps₂ ∧
    (sources ps₁).length = i ∧ (outputs ps₁).length = j := by
  constructor
  · intro copied
    induction ps generalizing i j with
    | nil => simp [copyOf?] at copied
    | cons p ps ih =>
      cases p with
      | kept c =>
        cases i with
        | zero =>
          obtain rfl : 0 = j := by simpa [copyOf?] using copied
          exact ⟨c, [], ps, rfl, rfl, rfl⟩
        | succ i =>
          obtain ⟨j, later, rfl⟩ := Option.map_eq_some_iff.mp copied
          obtain ⟨d, ps₁, ps₂, rfl, rfl, rfl⟩ := ih later
          exact ⟨d, .kept c :: ps₁, ps₂, rfl, by simp [Piece.source, Nat.add_comm],
            by simp [Piece.output, Nat.add_comm]⟩
      | masked value =>
        by_cases inside : i < value.length
        · rw [copyOf?_masked inside] at copied
          cases copied
        · rw [copyOf?, if_neg inside] at copied
          obtain ⟨j, later, rfl⟩ := Option.map_eq_some_iff.mp copied
          obtain ⟨d, ps₁, ps₂, rfl, from_, rfl⟩ := ih later
          exact ⟨d, .masked value :: ps₁, ps₂, rfl, by simp [Piece.source, from_]; omega,
            by simp [Piece.output, Nat.add_comm]⟩
  · rintro ⟨c, ps₁, ps₂, rfl, rfl, rfl⟩
    have here : copyOf? (.kept c :: ps₂) 0 = some 0 := rfl
    simpa [here] using copyOf?_append ps₁ (.kept c :: ps₂) 0

/-- A character is copied as it is. -/
theorem getElem?_of_copyOf? (copied : copyOf? ps i = some j) :
    (outputs ps)[j]? = (sources ps)[i]? := by
  obtain ⟨c, ps₁, ps₂, rfl, rfl, rfl⟩ := copied_iff.mp copied
  simp [Piece.source, Piece.output]

end Pieces

section Matching

theorem match?_eq_some (matched : r.match? cs = some (rest, after)) :
    rest ∈ r.mark.rests cs ∧ (r.value.rests rest).head? = some after := by
  obtain ⟨middle, member, found⟩ := List.exists_of_findSome?_eq_some matched
  obtain ⟨_, head, same⟩ := Option.map_eq_some_iff.mp found
  obtain ⟨rfl, rfl⟩ := Prod.mk.inj same
  exact ⟨member, head⟩

theorem match?_eq_none_iff :
    r.match? cs = none ↔ ∀ rest ∈ r.mark.rests cs, r.value.rests rest = [] := by
  simp [Rule.match?, List.findSome?_eq_none_iff]

/-- Where all marks that a value follows end alike, the match ends there too. -/
theorem match?_of_unique (member : rest ∈ r.mark.rests cs)
    (only : ∀ rest' ∈ r.mark.rests cs, r.value.rests rest' ≠ [] → rest' = rest)
    (head : (r.value.rests rest).head? = some after) : r.match? cs = some (rest, after) := by
  cases matched : r.match? cs with
  | none =>
    rw [match?_eq_none_iff.mp matched rest member] at head
    cases head
  | some found =>
    obtain ⟨rest', after'⟩ := found
    obtain ⟨member', head'⟩ := match?_eq_some matched
    obtain rfl := only rest' member' fun none => by simp [none] at head'
    rw [head] at head'
    rw [Option.some.inj head']

/-- A match is a mark and a value at the beginning of the text. -/
theorem split_of_match? (matched : r.match? cs = some (rest, after)) :
    ∃ mark value, cs = mark ++ rest ∧ rest = value ++ after := by
  obtain ⟨member, head⟩ := match?_eq_some matched
  obtain ⟨mark, rfl⟩ := Pattern.suffix_of_mem_rests member
  obtain ⟨value, rfl⟩ := Pattern.suffix_of_mem_rests (List.mem_of_mem_head? head)
  exact ⟨mark, value, rfl, rfl⟩

/-- A rule whose matches do not begin inside one another's marks, but for those that end alike. -/
structure Rule.Steady (r : Rule) : Prop where
  marks : r.mark.consumes = true
  values : r.value.consumes = true
  leads {c : Char} {rest : List Char} : r.leads c = true → r.match? (c :: rest) = none →
    r.match? rest = none
  within {mark inner rest after : List Char} {found : List Char × List Char} :
    r.match? (mark ++ rest) = some (rest, after) → inner <:+ mark → inner ≠ [] →
    r.match? (inner ++ rest) = some found → found = (rest, after)

theorem lengths_of_match? (steady : r.Steady) (matched : r.match? cs = some (rest, after)) :
    rest.length < cs.length ∧ after.length < rest.length := by
  obtain ⟨member, head⟩ := match?_eq_some matched
  exact ⟨Pattern.length_lt_of_mem_rests steady.marks member,
    Pattern.length_lt_of_mem_rests steady.values (List.mem_of_mem_head? head)⟩

structure Rule.Finds (r : Rule) (cs before mark value after : List Char) : Prop where
  split : cs = before ++ (mark ++ (value ++ after))
  matched : r.match? (mark ++ (value ++ after)) = some (value ++ after, after)

end Matching

section Splitting

inductive Rule.Splits (r : Rule) : List Char → List Piece → Prop
  | done : r.Splits [] []
  | passed {c : Char} {rest : List Char} {ps : List Piece} : r.match? (c :: rest) = none →
      r.Splits rest ps → r.Splits (c :: rest) (.kept c :: ps)
  | replaced {mark value rest : List Char} {ps : List Piece} :
      r.match? (mark ++ (value ++ rest)) = some (value ++ rest, rest) → r.Splits rest ps →
      r.Splits (mark ++ (value ++ rest)) (mark.map .kept ++ .masked value :: ps)

theorem sources_of_splits (splits : r.Splits cs ps) : sources ps = cs := by
  induction splits with
  | done => rfl
  | passed _ _ ih => simp [Piece.source, ih]
  | replaced _ _ ih => simp [Piece.source, ih]

theorem pieces_drop : r.pieces skip cs = r.pieces 0 (cs.drop skip) := by
  induction skip generalizing cs with
  | zero => rfl
  | succ skip ih =>
    cases cs with
    | nil => rfl
    | cons c rest => rw [Rule.pieces, ih, List.drop_succ_cons]

/-- A match is copied up to its value, and behind it the rule goes on. -/
theorem pieces_of_match (steady : r.Steady) (matched : r.match? cs = some (rest, after)) :
    ∃ mark value, cs = mark ++ (value ++ after) ∧ rest = value ++ after ∧
      r.pieces 0 cs = mark.map .kept ++ .masked value :: r.pieces 0 after := by
  obtain ⟨shorter, -⟩ := lengths_of_match? steady matched
  obtain ⟨mark, value, split, rfl⟩ := split_of_match? matched
  refine ⟨mark, value, split, rfl, ?_⟩
  cases cs with
  | nil => simp at shorter
  | cons c later =>
    have lengths : later.length + 1 = mark.length + (value ++ after).length := by
      simpa using congrArg List.length split
    have front : (c :: later).take (later.length + 1 - (value ++ after).length) = mark := by
      rw [lengths, Nat.add_sub_cancel_right, split, List.take_left]
    have middle : (value ++ after).take ((value ++ after).length - after.length) = value := by
      rw [List.length_append, Nat.add_sub_cancel_right, List.take_left]
    have next : later.drop (later.length - after.length) = after := by
      have tail : after <:+ c :: later :=
        split ▸ (List.suffix_append ..).trans (List.suffix_append ..)
      rcases List.suffix_cons_iff.mp tail with rfl | tail
      · rw [List.length_append] at shorter
        omega
      · exact (List.suffix_iff_eq_drop.mp tail).symm
    rw [Rule.pieces, matched]
    dsimp only
    rw [front, middle, pieces_drop, next]

theorem splits_pieces (steady : r.Steady) : r.Splits cs (r.pieces 0 cs) := by
  induction size : cs.length using Nat.strongRecOn generalizing cs with
  | ind n ih =>
    subst size
    cases matched : r.match? cs with
    | none =>
      cases cs with
      | nil => exact .done
      | cons c later =>
        rw [Rule.pieces, matched]
        exact .passed matched (ih _ (by simp) rfl)
    | some found =>
      obtain ⟨rest, after⟩ := found
      obtain ⟨shorter, shorter'⟩ := lengths_of_match? steady matched
      obtain ⟨mark, value, rfl, rfl, same⟩ := pieces_of_match steady matched
      rw [same]
      exact .replaced matched (ih _ (Nat.lt_trans shorter' shorter) rfl)

/-- The pieces are what the rule makes of the text. -/
theorem outputs_pieces (steady : r.Steady) (known : failed = true → skip = 0 → r.match? cs = none) :
    outputs (r.pieces skip cs) = r.mask skip failed cs := by
  induction cs generalizing skip failed with
  | nil => cases skip <;> rfl
  | cons c later ih =>
    cases skip with
    | succ skip =>
      rw [Rule.pieces, Rule.mask]
      exact ih (by simp)
    | zero =>
      have tried : r.matchUnless failed (c :: later) = r.match? (c :: later) := by
        cases failed with
        | false => rfl
        | true => exact (known rfl rfl).symm
      rw [Rule.pieces, Rule.mask, tried]
      cases matched : r.match? (c :: later) with
      | none =>
        have onward := @ih 0 (r.leads c) fun led _ => steady.leads led matched
        simp [Piece.output, onward]
      | some found =>
        have onward := @ih (later.length - found.2.length) false (by simp)
        dsimp only
        rw [outputs_append, outputs_kept, outputs_cons, onward, List.append_assoc]
        rfl

/-- A value that can be matched anywhere is replaced, or its mark begins in a value that is. -/
theorem Rule.Splits.value_masked (steady : r.Steady) (splits : r.Splits cs ps)
    (found : r.Finds cs before mark value after) : copyOf? ps before.length = none ∨
      ∀ k < value.length, copyOf? ps (before.length + mark.length + k) = none := by
  obtain ⟨rfl, matched⟩ := found
  generalize whole : before ++ (mark ++ (value ++ after)) = cs at splits
  induction splits generalizing before with
  | done =>
    obtain ⟨shorter, -⟩ := lengths_of_match? steady matched
    simp at whole shorter
    simp [whole] at shorter
  | @passed c rest ps missed _ ih =>
    cases before with
    | nil =>
      rw [List.nil_append] at whole
      rw [whole, missed] at matched
      cases matched
    | cons d before =>
      obtain ⟨-, same⟩ := List.cons.inj whole
      rcases ih same with masked | masked
      · exact .inl (by simp [copyOf?, masked])
      · refine .inr fun k inside => ?_
        have shift : (d :: before).length + mark.length + k =
            before.length + mark.length + k + 1 := by
          simp
          omega
        rw [shift, copyOf?, masked k inside, Option.map_none]
  | @replaced mark' value' rest ps matched' _ ih =>
    have behind (n : Nat) (gone : copyOf? ps n = none) :
        copyOf? (mark'.map .kept ++ .masked value' :: ps)
          (mark'.length + value'.length + n) = none := by
      have shift := copyOf?_append (mark'.map .kept ++ [.masked value']) ps n
      simpa [Piece.source, gone, Nat.add_assoc] using shift
    have inside (n : Nat) (short : n < value'.length) :
        copyOf? (mark'.map .kept ++ .masked value' :: ps) (mark'.length + n) = none := by
      have shift := copyOf?_append (mark'.map .kept) (.masked value' :: ps) n
      simpa [copyOf?_masked short] using shift
    have onward {before' : List Char} (same : rest = before' ++ (mark ++ (value ++ after)))
        (eq : before = mark' ++ (value' ++ before')) :
        copyOf? (mark'.map .kept ++ .masked value' :: ps) before.length = none ∨
          ∀ k < value.length, copyOf? (mark'.map .kept ++ .masked value' :: ps)
            (before.length + mark.length + k) = none := by
      have place : before.length = mark'.length + value'.length + before'.length := by
        simp [eq, Nat.add_assoc]
      rcases ih same.symm with masked | masked
      · exact .inl (place ▸ behind _ masked)
      · refine .inr fun k short => ?_
        rw [place, Nat.add_assoc, Nat.add_assoc, ← Nat.add_assoc before'.length]
        exact behind _ (masked k short)
    rcases List.append_eq_append_iff.mp whole with ⟨inner, rfl, same⟩ | ⟨later, rfl, same⟩
    · by_cases begins : inner = []
      · subst begins
        have filled := (lengths_of_match? steady matched').2
        rw [List.length_append] at filled
        exact .inl (by simpa using inside 0 (by omega))
      · -- The match begins in the mark, so it ends where this one does.
        rw [same] at matched
        have alike := steady.within matched' (List.suffix_append ..) begins matched
        obtain ⟨values, rfl⟩ := Prod.mk.inj alike
        obtain rfl := List.append_cancel_right values
        obtain rfl := List.append_cancel_right same
        exact .inr fun k short => by simpa using inside k short
    · rcases List.append_eq_append_iff.mp same with ⟨before', rfl, tail⟩ | ⟨last, rfl, tail⟩
      · exact onward tail rfl
      · by_cases begins : last = []
        · subst begins
          exact @onward [] tail.symm (by simp)
        · have short : later.length < (later ++ last).length := by
            simpa using List.length_pos_iff.mpr begins
          exact .inl (by simpa using inside later.length short)

/-- What is masked was matched behind a mark that was copied. -/
theorem Rule.Splits.matched_of_masked (splits : r.Splits cs (ps ++ .masked value :: qs)) :
    ∃ front mark, sources ps = front ++ mark ∧
      r.match? (mark ++ (value ++ sources qs)) = some (value ++ sources qs, sources qs) := by
  generalize whole : ps ++ .masked value :: qs = all at splits
  induction splits generalizing ps with
  | done => simp at whole
  | @passed c rest all _ _ ih =>
    cases ps with
    | nil => simp at whole
    | cons p ps =>
      obtain ⟨rfl, same⟩ := List.cons.inj whole
      obtain ⟨front, mark, split, matched⟩ := ih same
      exact ⟨c :: front, mark, by simp [Piece.source, split], matched⟩
  | @replaced mark value' rest all matched splits ih =>
    have here (same : .masked value :: qs = Piece.masked value' :: all) :
        r.match? (mark ++ (value ++ sources qs)) = some (value ++ sources qs, sources qs) := by
      obtain ⟨head, rfl⟩ := List.cons.inj same
      obtain rfl := Piece.masked.inj head
      rwa [sources_of_splits splits]
    rcases List.append_eq_append_iff.mp whole with ⟨copied, marked, same⟩ | ⟨later, rfl, same⟩
    · cases copied with
      | nil =>
        rw [List.append_nil] at marked
        exact ⟨[], mark, by simp [← marked], here same⟩
      | cons p copied =>
        obtain ⟨rfl, -⟩ := List.cons.inj same
        have inside : Piece.masked value ∈ mark.map .kept := by simp [marked]
        simp at inside
    · cases later with
      | nil => exact ⟨[], mark, by simp, here same.symm⟩
      | cons p later =>
        obtain ⟨rfl, next⟩ := List.cons.inj same
        obtain ⟨front, mark', split, matched⟩ := ih next.symm
        exact ⟨mark ++ value' ++ front, mark', by simp [Piece.source, split], matched⟩

/-- A stretch of the text that no value begins in is copied whole. -/
theorem copied_of_unmasked {xs ys : List Char} (split : sources ps = xs ++ ys)
    (whole : ∀ ps₁ value ps₂, ps = ps₁ ++ .masked value :: ps₂ → xs.length ≤ (sources ps₁).length) :
    ∃ later, ps = xs.map .kept ++ later ∧ sources later = ys := by
  induction xs generalizing ps with
  | nil => exact ⟨ps, rfl, split⟩
  | cons x xs ih =>
    cases ps with
    | nil => simp at split
    | cons p ps =>
      cases p with
      | masked value => simpa using whole [] value ps rfl
      | kept c =>
        rw [sources_cons, Piece.source, List.singleton_append, List.cons_append] at split
        obtain ⟨rfl, next⟩ := List.cons.inj split
        obtain ⟨later, rfl, rest⟩ := ih next fun ps₁ value ps₂ same => by
          simpa [Piece.source] using whole (.kept c :: ps₁) value ps₂ (by simp [same])
        exact ⟨later, rfl, rest⟩

end Splitting

section Masking

/-- A stretch in which no match begins is copied. -/
theorem mask_append (steady : r.Steady)
    (quiet : ∀ front back, before = front ++ back → back ≠ [] → r.match? (back ++ cs) = none) :
    r.mask 0 false (before ++ cs) = before ++ r.mask 0 false cs := by
  have apart : r.pieces 0 (before ++ cs) = before.map .kept ++ r.pieces 0 cs := by
    induction before with
    | nil => rfl
    | cons c before ih =>
      have missed := quiet [] (c :: before) rfl (List.cons_ne_nil c before)
      rw [List.cons_append] at missed ⊢
      rw [Rule.pieces, missed, ih fun front back split => quiet (c :: front) back (by simp [split])]
      rfl
  rw [← outputs_pieces steady (by simp), ← outputs_pieces steady (by simp), apart, outputs_append,
    outputs_kept]

theorem mask_of_quiet (steady : r.Steady)
    (quiet : ∀ front back, cs = front ++ back → back ≠ [] → r.match? back = none) :
    r.mask 0 false cs = cs := by
  have whole := @mask_append r [] cs steady fun front back split filled => by
    rw [List.append_nil]
    exact quiet front back split filled
  rwa [List.append_nil, Rule.mask, List.append_nil] at whole

theorem mask_of_match (steady : r.Steady)
    (matched : r.match? (mark ++ (value ++ after)) = some (value ++ after, after)) :
    r.mask 0 false (mark ++ (value ++ after)) =
      mark ++ (redacted.toList ++ r.mask 0 false after) := by
  obtain ⟨mark', value', split, same, pieces⟩ := pieces_of_match steady matched
  obtain rfl := List.append_cancel_right same
  obtain rfl := List.append_cancel_right split
  rw [← outputs_pieces steady (by simp), ← outputs_pieces steady (by simp), pieces]
  simp [Piece.output]

end Masking

end MultiCluster.Gather
