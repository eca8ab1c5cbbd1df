import Mathlib.Data.List.Infix
import MultiCluster.Files.Tree

/-! What writing into a tree changes. Without links the location that a path leads to is a matter of
its names alone, so it is known before anything is there; on the way to it directories may be made,
and at its end a file is put. -/
namespace MultiCluster.Files

def step (l : Location) (name : String) : Location :=
  if name = "" ∨ name = "." then l else if name = ".." then l.dropLast else l ++ [name]

def IsComponent (name : String) : Prop := name ∉ ["", ".", ".."] ∧ '/' ∉ name.toList

instance {name : String} : Decidable (IsComponent name) := inferInstanceAs (Decidable (_ ∧ _))

namespace Tree

def place (t : Tree) (path : String) : Location := (Text.splitOn '/' path).foldl step (t.start path)

/-- From one tree to the other directories were made, and files were put at some locations. -/
structure WritesOnly (allowed : Location → Prop) (t t' : Tree) : Prop where
  current : t'.current = t.current
  changed (p : Location) : t'.entry? p ≠ t.entry? p →
    (t.entry? p = none ∧ t'.entry? p = some .directory) ∨
      (allowed p ∧ ∃ text, t'.entry? p = some (.file text))

variable {t t' : Tree} {l l' p : Location} {e : Entry} {name : String}
  {names : List String} {allowed allowed' : Location → Prop}

theorem entryAt_put_of_ne (apart : p ≠ l) : entry? (t.put l e) p = t.entry? p := by
  by_cases root : p = []
  · subst root
    rfl
  · have missed : (l == p) = false := by simpa using Ne.symm apart
    have same : (fun x : Location × Entry => decide ((x.1 != l) = true ∧ (x.1 == p) = true)) =
        fun x => x.1 == p := by
      funext x
      by_cases at_p : x.1 = p
      · simp [at_p, apart]
      · simp [at_p]
    simp only [put, entry?, List.isEmpty_iff, root, if_false, List.find?_append, List.find?_filter]
    rw [same, List.find?_cons_of_neg (by simp [missed]), List.find?_nil, Option.or_none]

theorem entryAt_put_self (below : l ≠ []) : entry? (t.put l e) l = some e := by
  have none : (t.entries.filter fun x => x.1 != l).find? (fun x => x.1 == l) = none := by
    simp [List.find?_eq_none]
  simp only [put, entry?, List.isEmpty_iff, below, if_false, List.find?_append, none]
  simp

theorem WritesOnly.refl : WritesOnly allowed t t := ⟨rfl, fun _ differs => absurd rfl differs⟩

theorem WritesOnly.trans {t₁ t₂ t₃ : Tree} (first : WritesOnly allowed t₁ t₂)
    (second : WritesOnly allowed t₂ t₃) : WritesOnly allowed t₁ t₃ := by
  refine ⟨second.current.trans first.current, fun p differs => ?_⟩
  by_cases early : t₂.entry? p = t₁.entry? p
  · rw [← early] at differs ⊢
    exact second.changed p differs
  · by_cases late : t₃.entry? p = t₂.entry? p
    · rw [late]
      exact first.changed p early
    · rcases second.changed p late with ⟨gone, -⟩ | wrote
      · rcases first.changed p early with ⟨-, made⟩ | ⟨-, text, made⟩
        · rw [gone] at made
          cases made
        · rw [gone] at made
          cases made
      · exact .inr wrote

theorem WritesOnly.mono (wrote : WritesOnly allowed t t') (wider : ∀ p, allowed p → allowed' p) :
    WritesOnly allowed' t t' :=
  ⟨wrote.current, fun p differs => (wrote.changed p differs).imp_right fun ⟨inside, file⟩ =>
    ⟨wider p inside, file⟩⟩

theorem next_eq_ok (found : t.next l name = .ok l') : l' = step l name := by
  simp only [next, Bool.or_eq_true, beq_iff_eq] at found
  unfold step
  split_ifs at found with absent stays up long
  · rw [if_pos stays]
    exact (Except.ok.inj found).symm
  · rw [if_neg stays, if_pos up]
    exact (Except.ok.inj found).symm
  · rw [if_neg stays, if_neg up]
    exact (Except.ok.inj found).symm

theorem makeFrom_eq_ok (made : t.makeFrom l names = (.ok l', t')) : l' = names.foldl step l := by
  induction names generalizing t l with
  | nil =>
    obtain ⟨end_, -⟩ := Prod.mk.inj made
    split_ifs at end_
    exact (Except.ok.inj end_).symm
  | cons name rest ih =>
    rw [makeFrom] at made
    cases found : t.next l name with
    | error p => simp [found] at made
    | ok middle =>
      rw [found] at made
      rw [List.foldl_cons, ← next_eq_ok found]
      exact ih made

theorem put_directory_writes (missing : t.entry? l = none) :
    WritesOnly allowed t (t.put l .directory) := by
  refine ⟨rfl, fun p differs => ?_⟩
  by_cases here : p = l
  · subst here
    have below : p ≠ [] := by
      rintro rfl
      cases missing
    exact .inl ⟨missing, entryAt_put_self below⟩
  · exact absurd (entryAt_put_of_ne here) differs

theorem put_file_writes {text : Option String} : WritesOnly (· = l) t (t.put l (.file text)) := by
  refine ⟨rfl, fun p differs => ?_⟩
  by_cases here : p = l
  · subst here
    by_cases root : p = []
    · subst root
      exact absurd rfl differs
    · exact .inr ⟨rfl, text, entryAt_put_self root⟩
  · exact absurd (entryAt_put_of_ne here) differs

theorem makeFrom_writes : WritesOnly allowed t (t.makeFrom l names).2 := by
  induction names generalizing t l with
  | nil => exact .refl
  | cons name rest ih =>
    rw [makeFrom]
    cases t.next l name with
    | error p => exact .refl
    | ok middle =>
      dsimp only
      by_cases missing : (t.entry? middle).isNone = true
      · rw [if_pos missing]
        exact (put_directory_writes (Option.isNone_iff_eq_none.mp missing)).trans ih
      · rw [if_neg missing]
        exact ih

/-- Wherever its directory leads, a file is put right below that, and nothing else changes but
that directories are made. -/
theorem write_writes (t : Tree) (directory name text : String) :
    WritesOnly (· = step (t.place directory) name) t (t.write directory name text).2 := by
  have made := @makeFrom_writes t (t.start directory) (Text.splitOn '/' directory)
    (· = step (t.place directory) name)
  unfold write makeDirectories
  cases result : t.makeFrom (t.start directory) (Text.splitOn '/' directory) with
  | mk reached t₁ =>
    rw [result] at made
    cases reached with
    | error p => exact made
    | ok l =>
      obtain rfl : l = t.place directory := makeFrom_eq_ok result
      cases found : t₁.next (t.place directory) name with
      | error p => simpa [found] using made
      | ok goal =>
        obtain rfl := next_eq_ok found
        simp only [found]
        split
        · exact made
        · exact made.trans put_file_writes

/-- A file that was written is there. -/
theorem entryAt_write {directory text : String}
    (wrote : t.write directory name text = (.ok (), t')) :
    t'.entry? (step (t.place directory) name) = some (.file (some text)) := by
  unfold write makeDirectories at wrote
  cases result : t.makeFrom (t.start directory) (Text.splitOn '/' directory) with
  | mk reached t₁ =>
    rw [result] at wrote
    cases reached with
    | error p => simp at wrote
    | ok l =>
      obtain rfl : l = t.place directory := makeFrom_eq_ok result
      cases found : t₁.next (t.place directory) name with
      | error p => simp [found] at wrote
      | ok goal =>
        obtain rfl := next_eq_ok found
        simp only [found] at wrote
        split at wrote
        · simp at wrote
        · next file =>
          obtain rfl := (Prod.mk.inj wrote).2
          refine entryAt_put_self ?_
          intro root
          rw [root] at file
          exact file rfl

end Tree

section Paths

variable {base part : String} {t : Tree}

theorem splitOn_component (single : IsComponent part) : Text.splitOn '/' part = [part] := by
  rw [Text.splitOn, Text.pieces_of_not_mem single.2, List.map_singleton, String.ofList_toList]

theorem splitOn_append {a b : String} :
    Text.splitOn '/' (a ++ "/" ++ b) = Text.splitOn '/' a ++ Text.splitOn '/' b := by
  have whole : (a ++ "/" ++ b).toList = a.toList ++ '/' :: b.toList := by simp
  rw [Text.splitOn, whole, Text.pieces_append, List.map_append]
  rfl

theorem step_component {l : Location} (single : IsComponent part) : step l part = l ++ [part] := by
  obtain ⟨named, here, up⟩ : part ≠ "" ∧ part ≠ "." ∧ part ≠ ".." := by simpa using single.1
  rw [step, if_neg (by simp [named, here]), if_neg up]

theorem not_isAbsolute_component (single : IsComponent part) : isAbsolute part = false := by
  by_contra absolute
  have head : part.toList.head? = some '/' := by simpa [isAbsolute] using absolute
  exact single.2 (List.mem_of_mem_head? head)

theorem Tree.place_append {a b : String} : t.place (a ++ "/" ++ b) =
    (Text.splitOn '/' b).foldl step ((Text.splitOn '/' a).foldl step (t.start (a ++ "/"))) := by
  have same : isAbsolute (a ++ "/" ++ b) = isAbsolute (a ++ "/") := by
    cases chars : a.toList with
    | nil => simp [isAbsolute, chars]
    | cons c rest => simp [isAbsolute, chars]
  rw [place, splitOn_append, List.foldl_append, start, start, same]

/-- A single name behind a path leads one level down from where the path leads. -/
theorem Tree.place_join (single : IsComponent part) :
    t.place (join base part) = t.place base ++ [part] := by
  have relative := not_isAbsolute_component single
  by_cases empty : base = ""
  · subst empty
    have joined : join "" part = part := by simp [join]
    have root : t.place "" = t.current := rfl
    rw [joined, root, place, splitOn_component single, start, relative]
    exact step_component single
  · by_cases slash : base.toList.getLast? = some '/'
    · obtain ⟨front, split⟩ := List.getLast?_eq_some_iff.mp slash
      obtain rfl : base = String.ofList front ++ "/" := String.toList_injective (by simp [split])
      have joined : join (String.ofList front ++ "/") part =
          String.ofList front ++ "/" ++ part := by
        simp [join, relative]
      have itself : t.place (String.ofList front ++ "/") =
          (Text.splitOn '/' (String.ofList front)).foldl step
            (t.start (String.ofList front ++ "/")) := by
        have behind := @place_append t (String.ofList front) ""
        rwa [String.append_empty] at behind
      rw [joined, place_append, itself, splitOn_component single]
      exact step_component single
    · have joined : join base part = base ++ "/" ++ part := by simp [join, relative, empty, slash]
      have same : t.start (base ++ "/") = t.start base := by
        cases chars : base.toList with
        | nil => exact absurd (String.toList_eq_nil_iff.mp chars) empty
        | cons c rest => simp [start, isAbsolute, chars]
      rw [joined, place_append, splitOn_component single, same]
      exact step_component single

end Paths
end MultiCluster.Files
