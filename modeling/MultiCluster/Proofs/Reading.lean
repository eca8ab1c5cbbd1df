import MultiCluster.Cluster.Object
import MultiCluster.Proofs.Merge

/-! What can be read at a type. A record reads if every field of its type does that the value has;
so reading does not depend on fields of other names, and a merge patch that reads at a type can be
put into a value that does. -/
namespace MultiCluster.Cluster.Shape

variable {given patch read : Fields} {name : String} {required : Bool} {s : Shape}
  {fields : List (String × Bool × Shape)} {v w : Json}

def Reads (s : Shape) (v : Json) : Prop := ∃ w, s.read v = .ok w

def FieldReads (given : Fields) (field : String × Bool × Shape) : Prop :=
  ∀ v, Fields.find? field.1 given = some v → v = .null ∨ field.2.2.Reads v

def readField (given : Fields) (name : String) (required : Bool) (s : Shape) :
    Except String (Option Json) :=
  match Fields.find? name given with
  | none => .ok (if required then some s.empty else none)
  | some .null => .ok (if required then some s.empty else none)
  | some v => (s.read v).map some

theorem readField_of_find? (found : Fields.find? name given = some v) (present : v ≠ .null) :
    readField given name required s = (s.read v).map some := by
  unfold readField
  rw [found]
  cases v with
  | null => exact absurd rfl present
  | _ => rfl

theorem readField_of_absent
    (absent : Fields.find? name given = none ∨ Fields.find? name given = some .null) :
    readField given name required s = .ok (if required then some s.empty else none) := by
  unfold readField
  rcases absent with absent | absent <;> rw [absent]

theorem readFields_cons : readFields given ((name, required, s) :: fields) =
    (do
      let here ← readField given name required s
      let rest ← readFields given fields
      pure ((here.map fun v => (name, v)).toList ++ rest)) := by
  simp only [readFields, readField]
  cases Fields.find? name given with
  | none => cases required <;> rfl
  | some v =>
    cases v with
    | null => cases required <;> rfl
    | _ =>
      simp only
      generalize s.read _ = reading
      cases reading <;> rfl

theorem readField_ok_iff : (∃ here, readField given name required s = .ok here) ↔
    FieldReads given (name, required, s) := by
  unfold readField FieldReads
  cases found : Fields.find? name given with
  | none => simp
  | some v =>
    by_cases null : v = .null
    · subst null
      simp
    · have reads : (∃ here, (s.read v).map some = .ok here) ↔ s.Reads v := by
        unfold Reads
        cases s.read v <;> simp [Except.map]
      cases v <;> simp_all

theorem readFields_ok_iff : (∃ read, readFields given fields = .ok read) ↔
    ∀ field ∈ fields, FieldReads given field := by
  induction fields with
  | nil => simp [readFields]
  | cons head rest ih =>
    obtain ⟨name, required, s⟩ := head
    rw [readFields_cons, List.forall_mem_cons, ← ih, ← readField_ok_iff]
    cases readField given name required s with
    | error e => simp [bind, Except.bind]
    | ok here => cases readFields given rest <;> simp [bind, Except.bind, pure, Except.pure]

theorem reads_record_iff : (Shape.record fields).Reads (.obj given) ↔
    ∀ field ∈ fields, FieldReads given field := by
  rw [← readFields_ok_iff]
  simp only [Reads, Shape.read]
  cases readFields given fields <;> simp [Except.map]

theorem keys_of_readFields (ok : readFields given fields = .ok read) :
    (read.map (·.1)).Sublist (fields.map (·.1)) := by
  induction fields generalizing read with
  | nil =>
    simp only [readFields, Except.ok.injEq] at ok
    simp [← ok]
  | cons head rest ih =>
    obtain ⟨name, required, s⟩ := head
    rw [readFields_cons] at ok
    cases here : readField given name required s with
    | error e => simp [here, bind, Except.bind] at ok
    | ok value =>
      cases later : readFields given rest with
      | error e => simp [here, later, bind, Except.bind] at ok
      | ok others =>
        simp only [here, later, bind, Except.bind, pure, Except.pure, Except.ok.injEq] at ok
        subst ok
        cases value with
        | none => simpa using (ih later).cons name
        | some v => simpa using (ih later).cons_cons name

/-- A record that was read has under each name of its type what the value has there. -/
theorem find?_of_readFields (ok : readFields given fields = .ok read)
    (once : (fields.map (·.1)).Nodup) (member : (name, required, s) ∈ fields) :
    readField given name required s = .ok (Fields.find? name (Fields.ofList read)) := by
  have readOnce : (read.map (·.1)).Nodup := once.sublist (keys_of_readFields ok)
  rw [Fields.find?_ofList, Fields.find?_reverse readOnce]
  induction fields generalizing read with
  | nil => simp at member
  | cons head rest ih =>
    obtain ⟨other, req, t⟩ := head
    rw [readFields_cons] at ok
    cases here : readField given other req t with
    | error e => simp [here, bind, Except.bind] at ok
    | ok value =>
      cases later : readFields given rest with
      | error e => simp [here, later, bind, Except.bind] at ok
      | ok others =>
        simp only [here, later, bind, Except.bind, pure, Except.pure, Except.ok.injEq] at ok
        subst ok
        simp only [List.map_cons, List.nodup_cons] at once
        have apart : ∀ e ∈ others, e.1 ≠ other := fun e inOthers same =>
          once.1 ((keys_of_readFields later).subset (same ▸ List.mem_map_of_mem inOthers))
        rcases List.mem_cons.mp member with first | inRest
        · obtain ⟨rfl, rfl, rfl⟩ := by simpa using first
          have absent : Fields.find? name others = none := Fields.find?_eq_none_iff.mpr apart
          cases value with
          | none => simp [here, absent]
          | some v => simp [here, Fields.find?]
        · have different : other ≠ name := fun same =>
            once.1 (same ▸ List.mem_map_of_mem inRest)
          have othersOnce : (others.map (·.1)).Nodup := once.2.sublist (keys_of_readFields later)
          have found := ih later once.2 inRest othersOnce
          cases value with
          | none => simpa using found
          | some v => simpa [Fields.find?, different] using found

theorem get?_of_read_record (ok : (Shape.record fields).read (.obj given) = .ok w)
    (once : (fields.map (·.1)).Nodup) (member : (name, required, s) ∈ fields) :
    readField given name required s = .ok (w.get? name) := by
  cases reading : readFields given fields with
  | error e => simp [Shape.read, reading, Except.map] at ok
  | ok read =>
    simp only [Shape.read, reading, Except.map, Except.ok.injEq] at ok
    subst ok
    exact find?_of_readFields reading once member

theorem ascending_of_read_record (ok : (Shape.record fields).read v = .ok w) :
    ∃ read, w = .obj read ∧ Fields.Ascending read := by
  cases v with
  | obj given =>
    cases reading : readFields given fields with
    | error e => simp [Shape.read, reading, Except.map] at ok
    | ok read =>
      simp only [Shape.read, reading, Except.map, Except.ok.injEq] at ok
      exact ⟨_, ok.symm, Fields.ascending_ofList⟩
  | _ => simp [Shape.read, mismatch] at ok

/-- A part of a value was read at the type that the record gives it. -/
theorem part_of_readField {kept : Option Json} (ok : readField given name required s = .ok kept)
    (found : Fields.find? name given = some v) (present : v ≠ .null) :
    ∃ u, s.read v = .ok u ∧ kept = some u := by
  rw [readField_of_find? found present] at ok
  cases reading : s.read v with
  | error e => simp [reading, Except.map] at ok
  | ok u =>
    simp only [reading, Except.map, Except.ok.injEq] at ok
    exact ⟨u, rfl, ok.symm⟩

theorem part_of_read_record (ok : (Shape.record fields).read (.obj given) = .ok w)
    (once : (fields.map (·.1)).Nodup) (member : (name, required, s) ∈ fields)
    (found : Fields.find? name given = some v) (present : v ≠ .null) :
    ∃ u, s.read v = .ok u ∧ w.get? name = some u :=
  part_of_readField (get?_of_read_record ok once member) found present

theorem part_of_read_single (ok : (Shape.list s).read (.arr [v]) = .ok w) :
    ∃ u, s.read v = .ok u ∧ w = .arr [u] := by
  cases reading : s.read v with
  | error e => simp [Shape.read, readItems, reading, bind, Except.bind, Except.map] at ok
  | ok u =>
    simp only [Shape.read, readItems, reading, bind, Except.bind, pure, Except.pure, Except.map,
      Except.ok.injEq] at ok
    exact ⟨u, rfl, ok.symm⟩

theorem read_strings {items : List String} :
    (Shape.list .string).read (Json.strings items) = .ok (Json.strings items) := by
  have each : readItems (Shape.read .string) (items.map Json.str) = .ok (items.map Json.str) := by
    induction items with
    | nil => rfl
    | cons head rest ih =>
      have here : Shape.read .string (.str head) = .ok (.str head) := rfl
      simp only [List.map_cons, readItems, here, ih]
      rfl
  show (readItems (Shape.read .string) (items.map Json.str)).map Json.arr = _
  rw [each]
  rfl

end MultiCluster.Cluster.Shape
