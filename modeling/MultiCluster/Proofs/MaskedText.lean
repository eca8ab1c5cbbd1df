import MultiCluster.Proofs.JsonReading
import MultiCluster.Proofs.Masking

/-! The annotation that repeats an object in its text. What is read from the new text is what was
read from the old one with the mark at every sensitive place, and a text that was masked before is
left as it is, so masking an object once more changes nothing. -/
namespace MultiCluster.Gather

open Json

variable {kind key : String} {u v w : Json} {fields : Fields} {f : Json → Json} {n : Nat}

section Again

theorem maskFields_eq_str {s : String} : maskFields v = .str s ↔ v = .str s := by
  cases v <;> simp [maskFields]

/-- A name that is no credential's stays readable, so an entry is told from others as before. -/
theorem isSensitiveEntry_maskEach {entry : Bool} :
    isSensitiveEntry (maskEach entry fields) = isSensitiveEntry fields := by
  have name {s : String} : Fields.find? "name" (maskEach entry fields) = some (.str s) ↔
      Fields.find? "name" fields = some (.str s) := by
    have kept : (fun v : Json => if v.str?.isSome &&
        (isSensitiveKey "name" || (entry && "name" == "value")) then .str redacted
        else maskFields v) = maskFields := by
      funext v
      rw [not_sensitive_name]
      simp
    rw [find?_maskEach, kept, Option.map_eq_some_iff]
    simp only [maskFields_eq_str, exists_eq_right]
  have value : (∃ s, Fields.find? "value" (maskEach entry fields) = some (.str s)) ↔
      ∃ s, Fields.find? "value" fields = some (.str s) := by
    rw [find?_maskEach]
    cases Fields.find? "value" fields with
    | none => simp
    | some v =>
      cases v with
      | str s => by_cases hidden : (isSensitiveKey "value" || entry) = true <;>
          simp [str?, hidden, maskFields]
      | _ => simp [str?, maskFields]
  refine Bool.eq_iff_iff.mpr ?_
  simp only [isSensitiveEntry_iff, name]
  constructor
  · rintro ⟨i, s, named, valued, sensitive⟩
    obtain ⟨t, held⟩ := value.mp ⟨s, valued⟩
    exact ⟨i, t, named, held, sensitive⟩
  · rintro ⟨i, s, named, valued, sensitive⟩
    obtain ⟨t, held⟩ := value.mpr ⟨s, valued⟩
    exact ⟨i, t, named, held, sensitive⟩

mutual
theorem maskFields_maskFields : ∀ v : Json, maskFields (maskFields v) = maskFields v
  | .null => rfl
  | .bool _ => rfl
  | .int _ => rfl
  | .float _ => rfl
  | .str _ => rfl
  | .arr items => congrArg Json.arr (maskItems_maskItems items)
  | .obj fields => by
    simp only [maskFields, isSensitiveEntry_maskEach]
    rw [maskEach_maskEach]
theorem maskItems_maskItems : ∀ items : List Json, maskItems (maskItems items) = maskItems items
  | [] => rfl
  | v :: rest => by simp only [maskItems, maskFields_maskFields v, maskItems_maskItems rest]
theorem maskEach_maskEach : ∀ (fields : List (String × Json)) (entry : Bool),
    maskEach entry (maskEach entry fields) = maskEach entry fields
  | [], _ => rfl
  | (k, v) :: rest, entry => by
    have text : (maskFields v).str?.isSome = v.str?.isSome := by cases v <;> rfl
    simp only [maskEach, maskEach_maskEach rest entry]
    by_cases hidden : (v.str?.isSome && (isSensitiveKey k || (entry && k == "value"))) = true
    · have again : ((Json.str redacted).str?.isSome &&
          (isSensitiveKey k || (entry && k == "value"))) = true := by
        rw [Bool.and_eq_true] at hidden ⊢
        exact ⟨rfl, hidden.2⟩
      rw [if_pos hidden, if_pos again]
    · rw [if_neg hidden, text, if_neg hidden, maskFields_maskFields v]
end

theorem mem_maskEach {entry : Bool} {e : String × Json} (member : e ∈ maskEach entry fields) :
    e.2 = .str redacted ∨ ∃ v, (e.1, v) ∈ fields ∧ e.2 = maskFields v := by
  induction fields with
  | nil => cases member
  | cons head rest ih =>
    obtain ⟨k, v⟩ := head
    rw [maskEach] at member
    rcases List.mem_cons.mp member with rfl | later
    · simp only []
      split
      · exact .inl rfl
      · exact .inr ⟨v, List.mem_cons_self, rfl⟩
    · rcases ih later with mark | ⟨v, inside, masked⟩
      · exact .inl mark
      · exact .inr ⟨v, List.mem_cons_of_mem _ inside, masked⟩

/-- Masking keeps the order of keys, adds no level and leaves numbers alone. -/
theorem regular_maskFields (regular : Regular n v) : Regular n (maskFields v) := by
  induction regular with
  | null => exact .null
  | bool => exact .bool
  | int least most => exact .int least most
  | float returns => exact .float returns
  | str => exact .str
  | arr _ ih =>
    rw [maskFields, maskItems_eq]
    refine .arr fun w member => ?_
    obtain ⟨v, inside, rfl⟩ := List.mem_map.mp member
    exact ih v inside
  | obj ordered _ ih =>
    rw [maskFields]
    refine .obj (by rwa [Fields.Ascending, keys_maskEach]) fun e member => ?_
    rcases mem_maskEach member with mark | ⟨v, inside, masked⟩
    · rw [mark]
      exact .str
    · rw [masked]
      exact ih _ inside

end Again

section Applied

variable {a e : Json} {s : String}

theorem redactLastApplied_of_unread (unread : kind = "Secret" ∨ a.str?.bind parse? = none) :
    redactLastApplied kind a = .str redacted := by
  unfold redactLastApplied
  by_cases secret : kind = "Secret"
  · rw [if_pos (by simpa using secret)]
  · rw [if_neg (by simpa using secret), unread.resolve_left secret]

theorem redactLastApplied_of_read (other : kind ≠ "Secret") (read : a.str?.bind parse? = some e) :
    redactLastApplied kind a = .str (maskFields e).compact := by
  rw [redactLastApplied, if_neg (by simpa using other), read]

/-- The mark itself is no text of a value. -/
theorem parse?_redacted : parse? redacted = none := by decide +kernel

theorem redactLastApplied_again (floats : ∀ e, kind ≠ "Secret" →
      a.str?.bind parse? = some e → FloatsReturn e) :
    redactLastApplied kind (redactLastApplied kind a) = redactLastApplied kind a := by
  by_cases unread : kind = "Secret" ∨ a.str?.bind parse? = none
  · have mark : (Json.str redacted).str?.bind parse? = none := parse?_redacted
    rw [redactLastApplied_of_unread unread]
    exact redactLastApplied_of_unread (.inr mark)
  · rw [not_or] at unread
    obtain ⟨other, readable⟩ := unread
    obtain ⟨e, read⟩ := Option.ne_none_iff_exists'.mp readable
    obtain ⟨s, -, parsed⟩ := Option.bind_eq_some_iff.mp read
    have masked : (Json.str (maskFields e).compact).str?.bind parse? = some (maskFields e) :=
      (regular_maskFields (regular_of_parse? parsed (floats e other read))).returns
    rw [redactLastApplied_of_read other read, redactLastApplied_of_read other masked,
      maskFields_maskFields]

end Applied

section Whole

theorem mapField_eq_self (fixed : ∀ u, v.turn? (.key key) = some u → f u = u) :
    mapField key f v = v := by
  cases v with
  | obj fields => exact congrArg Json.obj (Fields.update_eq_self fixed)
  | _ => rfl

theorem maskEach_hidden {entry : Bool} :
    maskEach entry (fields.map fun e => (e.1, .str redacted)) =
      fields.map fun e => (e.1, .str redacted) := by
  induction fields with
  | nil => rfl
  | cons head rest ih => simp [maskEach, maskFields, ih]

/-- Hidden values stay hidden, and an entry that holds none has none afterwards. -/
theorem hideValues_masked :
    hideValues (maskFields (hideValues v)) = maskFields (hideValues v) := by
  cases v with
  | obj fields => simp [hideValues, maskFields, maskEach_hidden]
  | _ => simp [hideValues, maskFields]

theorem turn?_redacted {key : String} (down : (maskFields v).turn? (.key key) = some u) :
    u = .str redacted ∨ ∃ w, v.turn? (.key key) = some w ∧ u = maskFields w := by
  cases v with
  | obj fields =>
    rw [turn?_maskFields] at down
    obtain ⟨w, found, rfl⟩ := Option.map_eq_some_iff.mp down
    split
    · exact .inl rfl
    · exact .inr ⟨w, found, rfl⟩
  | _ => cases down

theorem hideSecret_redacted :
    hideSecret (redactResource "Secret" v) = redactResource "Secret" v := by
  have part {part : String} (either : part = "data" ∨ part = "stringData") :
      mapField part hideValues (redactResource "Secret" v) = redactResource "Secret" v := by
    refine mapField_eq_self fun u down => ?_
    rw [redactResource_eq] at down
    rcases turn?_redacted down with rfl | ⟨w, above, rfl⟩
    · rfl
    · rw [turn?_rewritten_part either] at above
      obtain ⟨x, -, rfl⟩ := Option.map_eq_some_iff.mp above
      exact hideValues_masked
  rw [hideSecret, part (.inl rfl), part (.inr rfl)]

theorem rewritten_redacted (floats : ∀ a e, kind ≠ "Secret" → v.below? appliedPlace = some a →
      a.str?.bind parse? = some e → FloatsReturn e) :
    rewritten kind (redactResource kind v) = redactResource kind v := by
  have hidden : (if kind == "Secret" then hideSecret (redactResource kind v)
      else redactResource kind v) = redactResource kind v := by
    by_cases secret : kind = "Secret"
    · subst secret
      exact hideSecret_redacted
    · rw [if_neg (by simpa using secret)]
  rw [rewritten, hidden]
  refine mapField_eq_self fun m metadata => mapField_eq_self fun w annotations =>
    mapField_eq_self fun b repeated => ?_
  have held : (redactResource kind v).below? appliedPlace = some b := by
    simp [appliedPlace, below?_cons, metadata, annotations, repeated]
  rw [below?_redacted_applied] at held
  obtain ⟨a, there, rfl⟩ := Option.map_eq_some_iff.mp held
  exact redactLastApplied_again fun e other read => floats a e other there read

theorem redactResource_again (floats : ∀ a e, kind ≠ "Secret" → v.below? appliedPlace = some a →
      a.str?.bind parse? = some e → FloatsReturn e) :
    redactResource kind (redactResource kind v) = redactResource kind v := by
  rw [redactResource_eq, rewritten_redacted floats, redactResource_eq, maskFields_maskFields]

end Whole

/-- A value with the mark at every sensitive place and nothing else changed. -/
structure Masks (v w : Json) : Prop where
  marked : ∀ p, Sensitive v p → w.below? p = some (.str redacted)
  others : AgreeBut (Sensitive v) v w

theorem masks_maskFields : Masks v (maskFields v) :=
  ⟨fun _ sensitive => sensitive.masked, agree_maskFields⟩

/-- A text that was read becomes one from which what it held is read back masked. -/
theorem redactLastApplied_masks {s t : String} {e : Json} (other : kind ≠ "Secret")
    (read : parse? s = some e) (floats : FloatsReturn e)
    (text : redactLastApplied kind (.str s) = .str t) : ∃ w, parse? t = some w ∧ Masks e w := by
  have parsed : (Json.str s).str?.bind parse? = some e := read
  rw [redactLastApplied_of_read other parsed] at text
  obtain rfl := Json.str.inj text
  exact ⟨maskFields e, (regular_maskFields (regular_of_parse? read floats)).returns,
    masks_maskFields⟩

/-- With credentials left out, the annotation that repeats an object becomes a text of what it
repeated, masked as the object itself is, or the mark alone; and masking twice is masking once. The
doubles in the text are those that come back from their own. -/
theorem keptResource_applied (o : Options) (kind : String) (v : Json)
    (masking : o.includeSensitiveData = false)
    (floats : ∀ s e, kind ≠ "Secret" → v.below? appliedPlace = some (.str s) →
      parse? s = some e → FloatsReturn e) :
    (v.below? appliedPlace = none → (keptResource o kind v).below? appliedPlace = none) ∧
    (∀ a, v.below? appliedPlace = some a →
      ∃ t, (keptResource o kind v).below? appliedPlace = some (.str t) ∧
        (∀ s e, kind ≠ "Secret" → a = .str s → parse? s = some e →
          ∃ w, parse? t = some w ∧ Masks e w) ∧
        ((kind = "Secret" ∨ ∀ s, a = .str s → parse? s = none) → t = redacted)) ∧
    keptResource o kind (keptResource o kind v) = keptResource o kind v := by
  have kept (u : Json) : keptResource o kind u = redactResource kind u := by
    rw [keptResource, masking, if_neg (by decide)]
  simp only [kept]
  refine ⟨?_, ?_, ?_⟩
  · intro absent
    rw [below?_redacted_applied, absent, Option.map_none]
  · intro a present
    obtain ⟨t, text⟩ := redactLastApplied_text kind a
    refine ⟨t, by rw [below?_redacted_applied, present, Option.map_some, text], ?_, ?_⟩
    · rintro s e other rfl read
      exact redactLastApplied_masks other read (floats s e other present read) text
    · intro unread
      have mark : Json.str t = .str redacted := by
        refine text.symm.trans (redactLastApplied_of_unread (unread.imp_right fun refused => ?_))
        cases a with
        | str s => exact refused s rfl
        | _ => rfl
      exact Json.str.inj mark
  · refine redactResource_again fun a e other present read => ?_
    obtain ⟨s, text, parsed⟩ := Option.bind_eq_some_iff.mp read
    cases a with
    | str t =>
      obtain rfl := Option.some.inj text
      exact floats t e other present parsed
    | _ => cases text

def appliedMap : Json := .obj [
  ("env", .obj [("name", .str "DB_PASSWORD"), ("value", .str "bXlUb")]),
  ("token", .str "eyJhb"),
  ("weight", .float ⟨false, 6755399441055744, -52⟩)]

def annotatedMap : Json := .obj [
  ("metadata", .obj [("annotations", .obj [(lastApplied, .str appliedMap.compact)])])]

theorem parse?_appliedMap : parse? appliedMap.compact = some appliedMap := by decide +kernel

theorem floatsReturn_appliedMap : FloatsReturn appliedMap := by
  have text (s : String) : FloatsReturn (.str s) :=
    floatsReturn_leaf (fun t => by cases t <;> rfl) (fun x same => by cases same)
  have entry : FloatsReturn (.obj [("name", .str "DB_PASSWORD"), ("value", .str "bXlUb")]) :=
    floatsReturn_obj (by simp [text])
  have weight : FloatsReturn (.float ⟨false, 6755399441055744, -52⟩) := by
    refine floatsReturn_leaf (fun t => by cases t <;> rfl) ?_
    rintro x ⟨⟩
    rw [Returns]
    decide +kernel
  exact floatsReturn_obj (by simp [text, entry, weight])

/-- Of the map that was applied, the password and the token are masked in the annotation. -/
theorem keptResource_annotatedMap :
    parse? appliedMap.compact = some appliedMap ∧ FloatsReturn appliedMap ∧
    (∃ t w, (keptResource ⟨[], [], "", false⟩ "ConfigMap" annotatedMap).below? appliedPlace =
        some (.str t) ∧ parse? t = some w ∧ Masks appliedMap w ∧
      w.below? [.key "env", .key "value"] = some (.str redacted) ∧
      w.below? [.key "token"] = some (.str redacted)) ∧
    keptResource ⟨[], [], "", false⟩ "ConfigMap"
        (keptResource ⟨[], [], "", false⟩ "ConfigMap" annotatedMap) =
      keptResource ⟨[], [], "", false⟩ "ConfigMap" annotatedMap := by
  have repeated : annotatedMap.below? appliedPlace = some (.str appliedMap.compact) := rfl
  obtain ⟨-, masked, again⟩ := keptResource_applied ⟨[], [], "", false⟩ "ConfigMap" annotatedMap rfl
    fun s e _ present read => by
      rw [repeated] at present
      obtain rfl := Json.str.inj (Option.some.inj present)
      rw [parse?_appliedMap] at read
      obtain rfl := Option.some.inj read
      exact floatsReturn_appliedMap
  obtain ⟨t, text, readable, -⟩ := masked _ repeated
  obtain ⟨w, read, masks⟩ := readable _ appliedMap (by decide) rfl parse?_appliedMap
  have password : Sensitive appliedMap [.key "env", .key "value"] :=
    .besideName (q := [.key "env"]) (by decide) rfl rfl
  have token : Sensitive appliedMap [.key "token"] := .underKey (q := []) (by decide) rfl
  exact ⟨parse?_appliedMap, floatsReturn_appliedMap,
    ⟨t, w, text, read, masks, masks.marked _ password, masks.marked _ token⟩, again⟩

end MultiCluster.Gather
