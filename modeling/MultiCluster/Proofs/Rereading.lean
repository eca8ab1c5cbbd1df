import MultiCluster.Cluster.Kind.Metadata
import MultiCluster.Proofs.Places
import MultiCluster.Proofs.Reading
import MultiCluster.Proofs.Timestamps

/-! Reading once more. What was read at a type reads as itself there, and so does a record of which
a field that it may lack was taken away. -/
namespace MultiCluster.Cluster.Shape

mutual
def distinct : Shape → Bool
  | .list item => item.distinct
  | .table item => item.distinct
  | .record fields => decide (fields.map (·.1)).Nodup && distinctFields fields
  | _ => true
def distinctFields : List (String × Bool × Shape) → Bool
  | [] => true
  | (_, _, s) :: rest => s.distinct && distinctFields rest
end

variable {s : Shape} {v w : Json} {fields : List (String × Bool × Shape)} {given m : Fields}
  {name : String} {required : Bool} {kept : Option Json}

theorem exists_of_map {α : Type} {x : Except String α} {f : α → Json} (ok : x.map f = .ok w) :
    ∃ a, x = .ok a ∧ w = f a := by
  cases x with
  | error e => cases ok
  | ok a => exact ⟨a, rfl, (Except.ok.inj ok).symm⟩

theorem text_of_readText {accepts : String → Option String} (ok : readText accepts v = .ok w) :
    ∃ s t, v = .str s ∧ accepts s = some t ∧ w = .str t := by
  cases v with
  | str s =>
    cases accepted : accepts s with
    | none => simp [readText, accepted, mismatch] at ok
    | some t =>
      simp only [readText, accepted, Except.ok.injEq] at ok
      exact ⟨s, t, rfl, accepted, ok.symm⟩
  | _ => simp [readText, mismatch] at ok

theorem readText_again {accepts : String → Option String}
    (again : ∀ s t, accepts s = some t → accepts t = some t)
    (ok : readText accepts v = .ok w) : readText accepts w = .ok w := by
  obtain ⟨s, t, rfl, accepted, rfl⟩ := text_of_readText ok
  simp [readText, again s t accepted]

theorem int_of_readInt {low high : Int} (ok : readInt low high v = .ok w) :
    ∃ n, w = .int n ∧ low ≤ n ∧ n ≤ high := by
  cases v with
  | int n =>
    by_cases fits : low ≤ n ∧ n ≤ high
    · simp only [readInt, fits, decide_true, Bool.and_self, if_true, Except.ok.injEq] at ok
      exact ⟨n, ok.symm, fits⟩
    · simp [readInt, fits, mismatch] at ok
  | _ => simp [readInt, mismatch] at ok

theorem readInt_again {low high : Int} (ok : readInt low high v = .ok w) :
    readInt low high w = .ok w := by
  obtain ⟨n, rfl, least, most⟩ := int_of_readInt ok
  simp [readInt, least, most]

theorem readItems_again {items read : List Json}
    (again : ∀ v w, s.read v = .ok w → s.read w = .ok w)
    (ok : readItems s.read items = .ok read) : readItems s.read read = .ok read := by
  induction items generalizing read with
  | nil =>
    obtain rfl := Except.ok.inj ok
    rfl
  | cons v rest ih =>
    cases here : s.read v with
    | error e => simp [readItems, here, bind, Except.bind] at ok
    | ok w =>
      cases later : readItems s.read rest with
      | error e => simp [readItems, here, later, bind, Except.bind] at ok
      | ok others =>
        simp only [readItems, here, later, bind, Except.bind, pure, Except.pure,
          Except.ok.injEq] at ok
        subst ok
        simp [readItems, again v w here, ih later, bind, Except.bind, pure, Except.pure]

theorem readEntries_again {read : Fields} (again : ∀ v w, s.read v = .ok w → s.read w = .ok w)
    (ok : readEntries s.read given = .ok read) : readEntries s.read read = .ok read := by
  induction given generalizing read with
  | nil =>
    obtain rfl := Except.ok.inj ok
    rfl
  | cons head rest ih =>
    obtain ⟨key, v⟩ := head
    cases here : s.read v with
    | error e => simp [readEntries, here, bind, Except.bind] at ok
    | ok w =>
      cases later : readEntries s.read rest with
      | error e => simp [readEntries, here, later, bind, Except.bind] at ok
      | ok others =>
        simp only [readEntries, here, later, bind, Except.bind, pure, Except.pure,
          Except.ok.injEq] at ok
        subst ok
        simp [readEntries, again v w here, ih later, bind, Except.bind, pure, Except.pure]

theorem exists_of_list (ok : (Shape.list s).read v = .ok w) :
    ∃ items read, v = .arr items ∧ readItems s.read items = .ok read ∧ w = .arr read := by
  cases v with
  | arr items =>
    obtain ⟨read, reading, rfl⟩ := exists_of_map ok
    exact ⟨items, read, rfl, reading, rfl⟩
  | _ => cases ok

theorem exists_of_table (ok : (Shape.table s).read v = .ok w) :
    ∃ given read, v = .obj given ∧ readEntries s.read given = .ok read ∧ w = .obj read := by
  cases v with
  | obj given =>
    obtain ⟨read, reading, rfl⟩ := exists_of_map ok
    exact ⟨given, read, rfl, reading, rfl⟩
  | _ => cases ok

theorem exists_of_record (ok : (Shape.record fields).read v = .ok w) :
    ∃ given read, v = .obj given ∧ readFields given fields = .ok read ∧
      w = .obj (Fields.ofList read) := by
  cases v with
  | obj given =>
    obtain ⟨read, reading, rfl⟩ := exists_of_map ok
    exact ⟨given, read, rfl, reading, rfl⟩
  | _ => cases ok

theorem exists_of_intOrString (ok : Shape.intOrString.read v = .ok w) :
    (∃ s, w = .str s) ∨ ∃ n : Int, w = .int n ∧ -2147483648 ≤ n ∧ n ≤ 2147483647 := by
  have number (ok : readInt (-2147483648) 2147483647 v = .ok w) :
      ∃ n : Int, w = .int n ∧ -2147483648 ≤ n ∧ n ≤ 2147483647 := int_of_readInt ok
  cases v with
  | str s => exact .inl ⟨s, (Except.ok.inj ok).symm⟩
  | _ => exact .inr (number ok)

/-- Nothing but an empty value is read as null. -/
theorem read_ne_null (ok : s.read v = .ok w) (present : v ≠ .null) : w ≠ .null := by
  have text {accepts : String → Option String} (ok : readText accepts v = .ok w) : w ≠ .null := by
    obtain ⟨_, t, _, _, rfl⟩ := text_of_readText ok
    simp
  have int {low high : Int} (ok : readInt low high v = .ok w) : w ≠ .null := by
    obtain ⟨n, rfl, _⟩ := int_of_readInt ok
    simp
  cases s with
  | any =>
    obtain rfl := Except.ok.inj ok
    exact present
  | string => exact text ok
  | bytes => exact text ok
  | timestamp => exact text ok
  | microtime => exact text ok
  | int32 => exact int ok
  | int64 => exact int ok
  | boolean =>
    cases v with
    | bool b =>
      obtain rfl := Except.ok.inj ok
      simp
    | _ => cases ok
  | intOrString =>
    rcases exists_of_intOrString ok with ⟨s, rfl⟩ | ⟨n, rfl, _⟩
    · simp
    · simp
  | list item =>
    obtain ⟨_, _, _, _, rfl⟩ := exists_of_list ok
    simp
  | table item =>
    obtain ⟨_, _, _, _, rfl⟩ := exists_of_table ok
    simp
  | record fields =>
    obtain ⟨_, _, _, _, rfl⟩ := exists_of_record ok
    simp

/-- What was read at the type reads as itself, as does its empty value. -/
structure Stable (s : Shape) : Prop where
  again : ∀ v w, s.read v = .ok w → s.read w = .ok w
  empty : s.read s.empty = .ok s.empty

theorem readField_again (stable : s.Stable)
    (ok : readField given name required s = .ok (Fields.find? name m)) :
    readField m name required s = .ok (Fields.find? name m) := by
  by_cases absent : Fields.find? name given = none ∨ Fields.find? name given = some .null
  · rw [readField_of_absent absent] at ok
    have held : Fields.find? name m = if required then some s.empty else none :=
      (Except.ok.inj ok).symm
    cases required with
    | false => rw [readField_of_absent (.inl held), held]
    | true =>
      by_cases null : s.empty = .null
      · rw [readField_of_absent (.inr (by rw [held, null]; rfl)), held]
      · rw [readField_of_find? held null, stable.empty, held]
        rfl
  · rw [not_or] at absent
    obtain ⟨v, found⟩ := Option.ne_none_iff_exists'.mp absent.1
    have present : v ≠ .null := by
      rintro rfl
      exact absent.2 found
    obtain ⟨u, read, held⟩ := part_of_readField ok found present
    rw [readField_of_find? held (read_ne_null read present), stable.again v u read, held]
    rfl

structure Fixed (fields : List (String × Bool × Shape)) (m : Fields) : Prop where
  ordered : Fields.Ascending m
  named : ∀ e ∈ m, e.1 ∈ fields.map (·.1)
  each : ∀ field ∈ fields,
    readField m field.1 field.2.1 field.2.2 = .ok (Fields.find? field.1 m)

theorem Fixed.read (fixed : Fixed fields m) (once : (fields.map (·.1)).Nodup) :
    (Shape.record fields).read (.obj m) = .ok (.obj m) := by
  have reads : ∀ field ∈ fields, FieldReads m field :=
    fun field member => readField_ok_iff.mp ⟨_, fixed.each field member⟩
  obtain ⟨read, reading⟩ := readFields_ok_iff.mpr reads
  have same : Fields.ofList read = m := by
    refine Json.eq_of_ascending Fields.ascending_ofList fixed.ordered fun k => ?_
    by_cases named : k ∈ fields.map (·.1)
    · obtain ⟨field, member, rfl⟩ := List.mem_map.mp named
      have found := find?_of_readFields reading once member
      exact Except.ok.inj (found.symm.trans (fixed.each field member))
    · have absent : Fields.find? k (Fields.ofList read) = none := by
        refine Fields.find?_eq_none_iff.mpr fun e member same => named ?_
        exact (keys_of_readFields reading).subset
          (same ▸ List.mem_map_of_mem (Fields.mem_ofList member))
      have unheld : Fields.find? k m = none :=
        Fields.find?_eq_none_iff.mpr fun e member same => named (same ▸ fixed.named e member)
      rw [absent, unheld]
  rw [Shape.read, reading]
  exact congrArg (fun m => Except.ok (Json.obj m)) same

theorem fixed_of_readFields {read : Fields} (once : (fields.map (·.1)).Nodup)
    (stable : ∀ field ∈ fields, field.2.2.Stable) (ok : readFields given fields = .ok read) :
    Fixed fields (Fields.ofList read) where
  ordered := Fields.ascending_ofList
  named _ member := (keys_of_readFields ok).subset
    (List.mem_map_of_mem (Fields.mem_ofList member))
  each field member := readField_again (stable field member) (find?_of_readFields ok once member)

/-- A field that may be lacking can be taken away. -/
theorem Fixed.erase (fixed : Fixed fields m)
    (optional : ∀ field ∈ fields, field.1 = name → field.2.1 = false) :
    Fixed fields (Fields.erase name m) where
  ordered := List.Pairwise.sublist (List.filter_sublist.map _) fixed.ordered
  named e member := fixed.named e (List.mem_of_mem_filter member)
  each field member := by
    by_cases here : field.1 = name
    · have absent : Fields.find? field.1 (Fields.erase name m) = none := by
        rw [here, Fields.find?_erase_self]
      rw [readField_of_absent (.inl absent), absent, optional field member here]
      rfl
    · have kept : Fields.find? field.1 (Fields.erase name m) = Fields.find? field.1 m :=
        Fields.find?_erase_of_ne here
      have own := fixed.each field member
      unfold readField at own ⊢
      rwa [kept]

theorem readFields_nil : readFields [] fields = .ok (emptyFields fields) := by
  induction fields with
  | nil => rfl
  | cons head rest ih =>
    obtain ⟨name, required, s⟩ := head
    rw [readFields_cons, readField_of_absent (.inl rfl), ih]
    cases required <;> rfl

mutual
/-- What was read once reads as itself again. -/
theorem stable_of_distinct : ∀ s : Shape, s.distinct = true → s.Stable
  | .any, _ => ⟨fun _ _ _ => rfl, rfl⟩
  | .string, _ => ⟨fun _ _ => readText_again fun _ _ same => same ▸ rfl, rfl⟩
  | .boolean, _ => by
    refine ⟨fun v w ok => ?_, rfl⟩
    cases v with
    | bool b =>
      obtain rfl := Except.ok.inj ok
      rfl
    | _ => cases ok
  | .int32, _ => ⟨fun _ _ => readInt_again, rfl⟩
  | .int64, _ => ⟨fun _ _ => readInt_again, rfl⟩
  | .intOrString, _ => by
    refine ⟨fun v w ok => ?_, rfl⟩
    rcases exists_of_intOrString ok with ⟨s, rfl⟩ | ⟨n, rfl, least, most⟩
    · rfl
    · simp [Shape.read, readInt, least, most]
  | .bytes, _ => by
    refine ⟨fun _ _ => readText_again fun s t same => ?_, rfl⟩
    split at same
    · next encoded =>
      obtain rfl := Option.some.inj same
      exact if_pos encoded
    · cases same
  | .timestamp, _ =>
    ⟨fun _ _ => readText_again fun _ _ => Timestamp.normalize_normalize, by decide +kernel⟩
  | .microtime, _ =>
    ⟨fun _ _ => readText_again fun _ _ => Timestamp.normalize_normalize, by decide +kernel⟩
  | .list item, ok => by
    have stable := stable_of_distinct item ok
    refine ⟨fun v w ok => ?_, rfl⟩
    obtain ⟨items, read, rfl, reading, rfl⟩ := exists_of_list ok
    rw [Shape.read, readItems_again stable.again reading]
    rfl
  | .table item, ok => by
    have stable := stable_of_distinct item ok
    refine ⟨fun v w ok => ?_, rfl⟩
    obtain ⟨given, read, rfl, reading, rfl⟩ := exists_of_table ok
    rw [Shape.read, readEntries_again stable.again reading]
    rfl
  | .record fields, ok => by
    simp only [distinct, Bool.and_eq_true, decide_eq_true_eq] at ok
    obtain ⟨once, parts⟩ := ok
    have stable := stable_of_distinctFields fields parts
    have again (v w : Json) (ok : (Shape.record fields).read v = .ok w) :
        (Shape.record fields).read w = .ok w := by
      obtain ⟨given, read, rfl, reading, rfl⟩ := exists_of_record ok
      exact (fixed_of_readFields once stable reading).read once
    refine ⟨again, again (.obj []) _ ?_⟩
    rw [Shape.read, readFields_nil]
    rfl
theorem stable_of_distinctFields : ∀ fields : List (String × Bool × Shape),
    distinctFields fields = true → ∀ field ∈ fields, field.2.2.Stable
  | [], _ => by simp
  | (_, _, s) :: rest, ok => by
    simp only [distinctFields, Bool.and_eq_true] at ok
    rw [List.forall_mem_cons]
    exact ⟨stable_of_distinct s ok.1, stable_of_distinctFields rest ok.2⟩
end

theorem metadata_stable : metadata.Stable := stable_of_distinct _ (by decide)

/-- Metadata may lack each of its fields. -/
theorem metadata_record : ∃ fields, metadata = .record fields ∧ (fields.map (·.1)).Nodup ∧
    (∀ field ∈ fields, field.2.2.Stable) ∧ ∀ field ∈ fields, field.2.1 = false :=
  ⟨_, rfl, by decide, stable_of_distinctFields _ (by decide), by simp [opt]⟩

theorem ascending_of_metadata (ok : metadata.read v = .ok (.obj m)) : Fields.Ascending m := by
  obtain ⟨fields, same, -⟩ := metadata_record
  obtain ⟨_, whole, ascending⟩ := ascending_of_read_record (same ▸ ok)
  exact Json.obj.inj whole ▸ ascending

theorem metadata_erased (ok : metadata.read v = .ok (.obj m)) :
    metadata.read (.obj (Fields.erase name m)) = .ok (.obj (Fields.erase name m)) := by
  obtain ⟨fields, same, once, stable, optional⟩ := metadata_record
  rw [same] at ok ⊢
  obtain ⟨_, read, _, parts, whole⟩ := exists_of_record ok
  obtain rfl := Json.obj.inj whole
  have fixed := fixed_of_readFields once stable parts
  exact (fixed.erase fun field member _ => optional field member).read once

end MultiCluster.Cluster.Shape
