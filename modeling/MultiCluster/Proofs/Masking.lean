import MultiCluster.Gather.Collection
import MultiCluster.Proofs.Places

/-! What the masking of credentials leaves of an object. Every text at a sensitive place and every
entry of a secret becomes the mark of what was there, the annotation that repeats the object is
rewritten, and everything else stays as it was, so that objects which differ only in what is
concealed have one and the same redaction. -/
namespace MultiCluster.Gather

open Json

/-- A place that holds a text under the name of a credential, or the text of an entry whose name is
one. -/
inductive Sensitive (v : Json) : Place → Prop
  | underKey {q : Place} {k s : String} : isSensitiveKey k = true →
      v.below? (q ++ [.key k]) = some (.str s) → Sensitive v (q ++ [.key k])
  | besideName {q : Place} {name s : String} : isSensitiveKey name = true →
      v.below? (q ++ [.key "name"]) = some (.str name) →
      v.below? (q ++ [.key "value"]) = some (.str s) → Sensitive v (q ++ [.key "value"])

def SecretEntry (kind : String) (p : Place) : Prop :=
  kind = "Secret" ∧ ∃ part k, (part = "data" ∨ part = "stringData") ∧ p = [.key part, .key k]

def Concealed (kind : String) (v : Json) (p : Place) : Prop := Sensitive v p ∨ SecretEntry kind p

def appliedPlace : Place := [.key "metadata", .key "annotations", .key lastApplied]

variable {kind key k s : String} {u v w : Json} {fields : Fields} {p q : Place} {t : Turn}
  {apart : Place → Prop} {f : Json → Json}

theorem not_sensitive_name : isSensitiveKey "name" = false := by decide
theorem not_sensitive_lastApplied : isSensitiveKey lastApplied = false := by decide
theorem not_sensitive_redacted : isSensitiveKey redacted = false := by decide

theorem Sensitive.text (sensitive : Sensitive v p) : ∃ s, v.below? p = some (.str s) := by
  cases sensitive with
  | underKey _ text => exact ⟨_, text⟩
  | besideName _ _ text => exact ⟨_, text⟩

theorem Sensitive.last (sensitive : Sensitive v p) : ∃ q k, p = q ++ [.key k] := by
  cases sensitive with
  | underKey _ _ => exact ⟨_, _, rfl⟩
  | besideName _ _ _ => exact ⟨_, _, rfl⟩

theorem Sensitive.under (sensitive : Sensitive u p) (down : v.turn? t = some u) :
    Sensitive v (t :: p) := by
  have lift (p : Place) : v.below? (t :: p) = u.below? p := by rw [below?_cons, down]; rfl
  cases sensitive with
  | underKey named text =>
    exact Sensitive.underKey (q := t :: _) named ((lift _).trans text)
  | besideName named name text =>
    exact Sensitive.besideName (q := t :: _) named ((lift _).trans name) ((lift _).trans text)

/-- What makes a place sensitive is seen by every value that looks the same there. -/
theorem Sensitive.of_agree (sensitive : Sensitive v p) (agree : AgreeBut apart v w)
    (clear : ∀ q, q <+: p → ¬ apart q)
    (sibling : ∀ q, p = q ++ [.key "value"] → ¬ apart (q ++ [.key "name"])) : Sensitive w p := by
  cases sensitive with
  | underKey named text => exact .underKey named (agree.text clear text)
  | @besideName q _ _ named name text =>
    refine .besideName named (agree.text (fun r before => ?_) name) (agree.text clear text)
    rcases List.prefix_concat_iff.mp before with rfl | above
    · exact sibling q rfl
    · exact clear r (above.trans (List.prefix_append ..))

section MaskFields

theorem maskItems_eq (items : List Json) : maskItems items = items.map maskFields := by
  induction items with
  | nil => rfl
  | cons v rest ih => simp [maskItems, ih]

def hides (fields : Fields) (key : String) (v : Json) : Bool :=
  v.str?.isSome && (isSensitiveKey key || (isSensitiveEntry fields && key == "value"))

theorem find?_maskEach {entry : Bool} : Fields.find? key (maskEach entry fields) =
    (Fields.find? key fields).map fun v =>
      if v.str?.isSome && (isSensitiveKey key || (entry && key == "value")) then .str redacted
      else maskFields v := by
  induction fields with
  | nil => rfl
  | cons head rest ih =>
    obtain ⟨i, u⟩ := head
    by_cases same : i = key
    · subst same
      simp [maskEach, Fields.find?]
    · simpa [maskEach, Fields.find?, same] using ih

theorem keys_maskEach {entry : Bool} :
    (maskEach entry fields).map (·.1) = fields.map (·.1) := by
  induction fields with
  | nil => rfl
  | cons head rest ih => simpa [maskEach] using ih

theorem front_maskFields : (maskFields v).front = v.front := by
  cases v with
  | arr items => simp [maskFields, front, maskItems_eq]
  | obj fields => simp only [maskFields, front, keys_maskEach]
  | _ => rfl

theorem isSensitiveEntry_iff : isSensitiveEntry fields = true ↔
    ∃ name s, Fields.find? "name" fields = some (.str name) ∧
      Fields.find? "value" fields = some (.str s) ∧ isSensitiveKey name = true := by
  constructor
  · intro entry
    unfold isSensitiveEntry at entry
    split at entry
    next name s foundName foundValue => exact ⟨name, s, foundName, foundValue, entry⟩
    next => cases entry
  · rintro ⟨name, s, foundName, foundValue, named⟩
    simp only [isSensitiveEntry, foundName, foundValue, named]

theorem turn?_maskFields (fields : Fields) (key : String) :
    (maskFields (.obj fields)).turn? (.key key) = (Fields.find? key fields).map fun v =>
      if hides fields key v then .str redacted else maskFields v :=
  find?_maskEach

theorem hides_iff (object : v.below? q = some (.obj fields))
    (found : Fields.find? key fields = some u) :
    hides fields key u = true ↔ Sensitive v (q ++ [.key key]) := by
  have lookup (k : String) : v.below? (q ++ [.key k]) = Fields.find? k fields := by
    rw [below?_snoc, object]
    rfl
  constructor
  · intro hidden
    simp only [hides, Bool.and_eq_true, Bool.or_eq_true, beq_iff_eq] at hidden
    obtain ⟨text, named | ⟨entry, rfl⟩⟩ := hidden
    · cases u with
      | str s => exact .underKey named ((lookup key).trans found)
      | _ => simp [str?] at text
    · obtain ⟨name, s, foundName, foundValue, named⟩ := isSensitiveEntry_iff.mp entry
      exact .besideName named ((lookup _).trans foundName) ((lookup _).trans foundValue)
  · intro sensitive
    obtain ⟨s, text⟩ := sensitive.text
    obtain rfl : u = .str s := by
      rw [lookup, found] at text
      exact Option.some.inj text
    generalize place : q ++ [Turn.key key] = p at sensitive
    cases sensitive with
    | underKey named _ =>
      obtain ⟨rfl, same⟩ := List.append_inj' place rfl
      obtain rfl : key = _ := by simpa using same
      simp [hides, str?, named]
    | besideName named name value =>
      obtain ⟨rfl, same⟩ := List.append_inj' place rfl
      obtain rfl : key = "value" := by simpa using same
      rw [lookup] at name value
      have entry : isSensitiveEntry fields = true :=
        isSensitiveEntry_iff.mpr ⟨_, _, name, value, named⟩
      simp [hides, str?, entry]

/-- Masking reaches every place, unless the way there ends at a sensitive one. -/
theorem below?_maskFields : (∃ q, q <+: p ∧ Sensitive v q) ∨
    (maskFields v).below? p = (v.below? p).map maskFields := by
  induction p generalizing v with
  | nil => exact .inr rfl
  | cons t rest ih =>
    have onward (u : Json) (down : v.turn? t = some u)
        (masked : (maskFields v).turn? t = some (maskFields u)) :
        (∃ q, q <+: t :: rest ∧ Sensitive v q) ∨
          (maskFields v).below? (t :: rest) = (v.below? (t :: rest)).map maskFields := by
      rcases ih (v := u) with ⟨q, before, sensitive⟩ | same
      · exact .inl ⟨t :: q, List.cons_prefix_cons.mpr ⟨rfl, before⟩, sensitive.under down⟩
      · exact .inr (by simpa [below?_cons, down, masked] using same)
    cases v with
    | arr items =>
      cases t with
      | item n =>
        cases down : items[n]? with
        | none => exact .inr (by simp [below?_cons, maskFields, turn?, maskItems_eq, down])
        | some u => exact onward u down (by simp [maskFields, turn?, maskItems_eq, down])
      | key k => exact .inr rfl
    | obj fields =>
      cases t with
      | item n => exact .inr rfl
      | key k =>
        have masked := turn?_maskFields fields k
        cases found : Fields.find? k fields with
        | none =>
          have absent : (Json.obj fields).turn? (.key k) = none := found
          rw [found] at masked
          exact .inr (by simp only [below?_cons, absent, masked, Option.map_none, Option.bind_none])
        | some u =>
          rw [found] at masked
          cases hidden : hides fields k u with
          | true =>
            have sensitive := (hides_iff (q := []) rfl found).mp hidden
            exact .inl ⟨[.key k], by simp, sensitive⟩
          | false => exact onward u found (by simpa [hidden] using masked)
    | _ => cases t <;> exact .inr rfl

/-- A way that leads on does not pass a text. -/
theorem Sensitive.whole (sensitive : Sensitive v q) (before : q <+: p)
    (present : v.below? p = some u) : q = p := by
  obtain ⟨s, text⟩ := sensitive.text
  exact end_of_text text before present

theorem Sensitive.masked (sensitive : Sensitive v p) :
    (maskFields v).below? p = some (.str redacted) := by
  obtain ⟨s, text⟩ := sensitive.text
  obtain ⟨q, k, rfl⟩ := sensitive.last
  obtain ⟨fields, object, found⟩ := fields_of_key text
  have reached : (maskFields v).below? q = some (maskFields (.obj fields)) := by
    rcases below?_maskFields (v := v) (p := q) with ⟨r, before, earlier⟩ | same
    · have whole := earlier.whole (before.trans (List.prefix_append ..)) text
      have short := before.length_le
      rw [whole] at short
      simp at short
    · rw [same, object]
      rfl
  have hidden : hides fields k (.str s) = true := (hides_iff object found).mpr sensitive
  rw [below?_snoc, reached, Option.bind_some, turn?_maskFields, found]
  simp [hidden]

/-- Nothing but the mark is left at a sensitive place of what was masked. -/
theorem masked_of_sensitive (sensitive : Sensitive (maskFields v) p) :
    (maskFields v).below? p = some (.str redacted) := by
  obtain ⟨s, text⟩ := sensitive.text
  -- A text of the masked value is the mark, or it stands in the value itself.
  have origin {q : Place} {s : String} (text : (maskFields v).below? q = some (.str s)) :
      (maskFields v).below? q = some (.str redacted) ∨ v.below? q = some (.str s) := by
    rcases below?_maskFields (v := v) (p := q) with ⟨r, before, earlier⟩ | same
    · obtain rfl := end_of_text earlier.masked before text
      exact .inl earlier.masked
    · rw [text] at same
      obtain ⟨u, there, eq⟩ := Option.map_eq_some_iff.mp same.symm
      have scalar : u.front = .scalar (.str s) := by rw [← front_maskFields, eq]; rfl
      exact .inr (by rw [there, front_eq_scalar scalar])
  rcases origin text with mark | own
  · exact mark
  · cases sensitive with
    | underKey named _ => exact (Sensitive.underKey named own).masked
    | @besideName q name _ named found _ =>
      rcases origin found with mark | ownName
      · rw [mark] at found
        obtain rfl : redacted = name := by simpa using found
        rw [not_sensitive_redacted] at named
        cases named
      · exact (Sensitive.besideName named ownName own).masked

theorem agree_maskFields : AgreeBut (Sensitive v) v (maskFields v) := by
  intro p clear
  rcases below?_maskFields (v := v) (p := p) with ⟨q, before, sensitive⟩ | same
  · exact absurd sensitive (clear q before)
  · rw [same, Option.map_map]
    congr 1
    funext u
    exact front_maskFields.symm

end MaskFields

section Rewriting

theorem turn?_mapField_self : (mapField key f v).turn? (.key key) = (v.turn? (.key key)).map f := by
  cases v with
  | obj fields => exact Fields.find?_update_self
  | _ => rfl

theorem turn?_mapField_of_ne (other : t ≠ .key key) : (mapField key f v).turn? t = v.turn? t := by
  cases v with
  | obj fields =>
    cases t with
    | key k => exact Fields.find?_update_of_ne fun same => other (congrArg _ same)
    | item n => rfl
  | _ => rfl

theorem front_mapField : (mapField key f v).front = v.front := by
  cases v with
  | obj fields => simp only [mapField, front, Fields.keys_update]
  | _ => rfl

theorem agree_mapField (inside : ∀ u, v.turn? (.key key) = some u →
    AgreeBut (fun p => apart (.key key :: p)) u (f u)) : AgreeBut apart v (mapField key f v) := by
  intro p clear
  cases p with
  | nil => simp [front_mapField]
  | cons t rest =>
    by_cases same : t = .key key
    · subst same
      rw [below?_cons, below?_cons, turn?_mapField_self]
      cases down : v.turn? (.key key) with
      | none => rfl
      | some u =>
        exact inside u down rest fun q before =>
          clear _ (List.cons_prefix_cons.mpr ⟨rfl, before⟩)
    · rw [below?_cons, below?_cons, turn?_mapField_of_ne same]

theorem turn?_hideValues :
    (hideValues v).turn? (.key k) = (v.turn? (.key k)).map fun _ => .str redacted := by
  cases v with
  | obj fields =>
    induction fields with
    | nil => rfl
    | cons head rest ih =>
      obtain ⟨i, u⟩ := head
      by_cases same : i = k
      · simp [hideValues, turn?, get?, Fields.find?, same]
      · simpa [hideValues, turn?, get?, Fields.find?, same] using ih
  | _ => rfl

theorem agree_hideValues (entries : ∀ k, apart [.key k]) : AgreeBut apart v (hideValues v) := by
  intro p clear
  cases p with
  | nil => cases v <;> simp [hideValues, front]
  | cons t rest =>
    cases t with
    | key k => exact absurd (entries k) (clear _ (by simp))
    | item n => cases v <;> rfl

theorem redactLastApplied_text (kind : String) (v : Json) : ∃ s, redactLastApplied kind v = .str s := by
  unfold redactLastApplied
  split
  · exact ⟨_, rfl⟩
  · split
    · exact ⟨_, rfl⟩
    · exact ⟨_, rfl⟩

theorem redactLastApplied_congr (same : v.front = w.front) :
    redactLastApplied kind v = redactLastApplied kind w := by
  have text : v.str? = w.str? := by
    cases v <;> cases w <;> simp_all [front, str?]
  unfold redactLastApplied
  rw [text]

def rewritten (kind : String) (v : Json) : Json :=
  mapField "metadata" (mapField "annotations" (mapField lastApplied (redactLastApplied kind)))
    (if kind == "Secret" then hideSecret v else v)

theorem redactResource_eq : redactResource kind v = maskFields (rewritten kind v) := rfl

def Rewritten (kind : String) (p : Place) : Prop := SecretEntry kind p ∨ p = appliedPlace

theorem agree_rewritten : AgreeBut (Rewritten kind) v (rewritten kind v) := by
  have hidden : AgreeBut (Rewritten kind) v (if kind == "Secret" then hideSecret v else v) := by
    by_cases secret : kind = "Secret"
    · rw [if_pos (by simpa using secret)]
      refine AgreeBut.trans (v := mapField "data" hideValues v) ?_ ?_
      · exact agree_mapField fun u _ => agree_hideValues fun k => .inl ⟨secret, _, k, .inl rfl, rfl⟩
      · exact agree_mapField fun u _ => agree_hideValues fun k => .inl ⟨secret, _, k, .inr rfl, rfl⟩
    · rw [if_neg (by simpa using secret)]
      exact AgreeBut.refl
  refine hidden.trans ?_
  refine agree_mapField fun _ _ => agree_mapField fun _ _ => agree_mapField fun _ _ p clear => ?_
  exact absurd (.inr rfl) (clear [] (List.nil_prefix ..))

theorem turn?_rewritten_part {part : String} (either : part = "data" ∨ part = "stringData") :
    (rewritten "Secret" v).turn? (.key part) = (v.turn? (.key part)).map hideValues := by
  rcases either with rfl | rfl
  · rw [rewritten, turn?_mapField_of_ne (by decide), if_pos (by decide), hideSecret,
      turn?_mapField_of_ne (by decide), turn?_mapField_self]
  · rw [rewritten, turn?_mapField_of_ne (by decide), if_pos (by decide), hideSecret,
      turn?_mapField_self, turn?_mapField_of_ne (by decide)]

theorem below?_rewritten_entry (secret : SecretEntry kind p) :
    (rewritten kind v).below? p = (v.below? p).map fun _ => .str redacted := by
  obtain ⟨rfl, part, k, either, rfl⟩ := secret
  rw [below?_cons, below?_cons, turn?_rewritten_part either]
  cases v.turn? (.key part) with
  | none => rfl
  | some u => simp only [Option.map_some, Option.bind_some, below?_single, turn?_hideValues]

theorem below?_rewritten_applied :
    (rewritten kind v).below? appliedPlace =
      (v.below? appliedPlace).map (redactLastApplied kind) := by
  have metadata : (if kind == "Secret" then hideSecret v else v).turn? (.key "metadata") =
      v.turn? (.key "metadata") := by
    split
    · rw [hideSecret, turn?_mapField_of_ne (by decide), turn?_mapField_of_ne (by decide)]
    · rfl
  rw [appliedPlace, below?_cons, below?_cons, rewritten, turn?_mapField_self, metadata]
  cases v.turn? (.key "metadata") with
  | none => rfl
  | some u =>
    simp only [Option.map_some, Option.bind_some, below?_cons (v := u),
      below?_cons (v := mapField _ _ u), turn?_mapField_self]
    cases u.turn? (.key "annotations") with
    | none => rfl
    | some w => simp only [Option.map_some, Option.bind_some, below?_single, turn?_mapField_self]

end Rewriting

section Redaction

theorem Sensitive.named (sensitive : Sensitive v (q ++ [.key k])) :
    isSensitiveKey k = true ∨ k = "value" := by
  generalize place : q ++ [Turn.key k] = p at sensitive
  cases sensitive with
  | underKey named _ =>
    obtain ⟨_, same⟩ := List.append_inj' place rfl
    obtain rfl : k = _ := by simpa using same
    exact .inl named
  | besideName _ _ _ =>
    obtain ⟨_, same⟩ := List.append_inj' place rfl
    exact .inr (by simpa using same)

theorem not_sensitive_at_name : ¬ Sensitive v (q ++ [.key "name"]) := by
  intro sensitive
  rcases sensitive.named with named | same
  · rw [not_sensitive_name] at named
    cases named
  · exact absurd same (by decide)

theorem not_sensitive_at_applied : ¬ Sensitive v appliedPlace := by
  intro sensitive
  rcases Sensitive.named (q := [.key "metadata", .key "annotations"]) sensitive with named | same
  · rw [not_sensitive_lastApplied] at named
    cases named
  · exact absurd same (by decide)

theorem SecretEntry.last (secret : SecretEntry kind p) : ∃ q k, p = q ++ [.key k] := by
  obtain ⟨_, part, k, _, rfl⟩ := secret
  exact ⟨[.key part], k, rfl⟩

theorem SecretEntry.sibling (secret : SecretEntry kind (q ++ [.key k])) (j : String) :
    SecretEntry kind (q ++ [.key j]) := by
  obtain ⟨rfl, part, i, either, place⟩ := secret
  obtain ⟨rfl, _⟩ := List.append_inj' (show q ++ [.key k] = [.key part] ++ [.key i] from place) rfl
  exact ⟨rfl, part, j, either, rfl⟩

/-- Where nothing was rewritten, an object is as sensitive afterwards as before. -/
theorem sensitive_rewritten_iff (clear : ∀ q, q <+: p → ¬ Rewritten kind q) :
    Sensitive (rewritten kind v) p ↔ Sensitive v p := by
  have sibling (q : Place) (place : p = q ++ [.key "value"]) :
      ¬ Rewritten kind (q ++ [.key "name"]) := by
    rintro (secret | applied)
    · exact clear p List.prefix_rfl (.inl (place ▸ secret.sibling "value"))
    · have split : q ++ [Turn.key "name"] =
          [.key "metadata", .key "annotations"] ++ [.key lastApplied] := applied
      obtain ⟨_, same⟩ := List.append_inj' split rfl
      exact absurd same (by decide)
  exact ⟨fun sensitive => sensitive.of_agree agree_rewritten.symm clear sibling,
    fun sensitive => sensitive.of_agree agree_rewritten clear sibling⟩

theorem redacted_of_entry (secret : SecretEntry kind p)
    (present : (redactResource kind v).below? p = some u) : u = .str redacted := by
  rw [redactResource_eq] at present
  rcases below?_maskFields (v := rewritten kind v) (p := p) with ⟨q, before, sensitive⟩ | same
  · obtain rfl := end_of_text sensitive.masked before present
    exact Option.some.inj (present.symm.trans sensitive.masked)
  · rw [same, below?_rewritten_entry secret, Option.map_map] at present
    obtain ⟨_, _, mark⟩ := Option.map_eq_some_iff.mp present
    exact mark.symm

theorem below?_redacted_applied : (redactResource kind v).below? appliedPlace =
    (v.below? appliedPlace).map (redactLastApplied kind) := by
  rw [redactResource_eq, ← below?_rewritten_applied]
  rcases below?_maskFields (v := rewritten kind v) (p := appliedPlace)
    with ⟨q, before, sensitive⟩ | same
  · -- The way to the annotation ends at a text above it, before and after masking.
    have above : q ≠ appliedPlace := fun same => not_sensitive_at_applied (same ▸ sensitive)
    obtain ⟨s, text⟩ := sensitive.text
    have neither {x : Json} {s : String} (text : x.below? q = some (.str s)) :
        x.below? appliedPlace = none := by
      cases present : x.below? appliedPlace with
      | none => rfl
      | some u => exact absurd (end_of_text text before present) above
    rw [neither sensitive.masked, neither text]
  · rw [same, below?_rewritten_applied, Option.map_map]
    congr 1
    funext u
    obtain ⟨s, text⟩ := redactLastApplied_text kind u
    rw [Function.comp_apply, text]
    rfl

theorem text_of_rewritten (held : Rewritten kind p)
    (present : (redactResource kind v).below? p = some u) : ∃ s, u = .str s := by
  rcases held with secret | rfl
  · exact ⟨_, redacted_of_entry secret present⟩
  · rw [below?_redacted_applied] at present
    obtain ⟨applied, _, rfl⟩ := Option.map_eq_some_iff.mp present
    exact redactLastApplied_text kind applied

/-- What is left at a concealed place is the mark of what was there, whether the place was
concealed in the object or is in what was made of it. -/
theorem redacted_of_concealed
    (concealed : Concealed kind v p ∨ Concealed kind (redactResource kind v) p)
    (present : (redactResource kind v).below? p = some u) : u = .str redacted := by
  rcases concealed with (own | secret) | (left | secret)
  · by_cases passes : ∃ q, q <+: p ∧ Rewritten kind q
    · obtain ⟨q, before, held⟩ := passes
      obtain ⟨w, above⟩ := present_above before present
      obtain ⟨s, rfl⟩ := text_of_rewritten held above
      obtain rfl := end_of_text above before present
      rcases held with secret | rfl
      · exact redacted_of_entry secret present
      · exact absurd own not_sensitive_at_applied
    · have clear : ∀ q, q <+: p → ¬ Rewritten kind q :=
        fun q before held => passes ⟨q, before, held⟩
      have sensitive := (sensitive_rewritten_iff clear).mpr own
      exact Option.some.inj (present.symm.trans sensitive.masked)
  · exact redacted_of_entry secret present
  · exact Option.some.inj (present.symm.trans (masked_of_sensitive left))
  · exact redacted_of_entry secret present

theorem Concealed.last (concealed : Concealed kind v p) : ∃ q k, p = q ++ [.key k] := by
  rcases concealed with sensitive | secret
  · exact sensitive.last
  · exact secret.last

theorem agree_redactResource :
    AgreeBut (fun p => Concealed kind v p ∨ p = appliedPlace) v (redactResource kind v) := by
  intro p clear
  have written : ∀ q, q <+: p → ¬ Rewritten kind q := by
    intro q before held
    rcases held with secret | applied
    · exact clear q before (.inl (.inr secret))
    · exact clear q before (.inr applied)
  have masked : ∀ q, q <+: p → ¬ Sensitive (rewritten kind v) q := by
    intro q before sensitive
    have own := (sensitive_rewritten_iff fun r above => written r (above.trans before)).mp sensitive
    exact clear q before (.inl (.inl own))
  exact (agree_rewritten p written).trans (agree_maskFields p masked)

theorem distinct_redactResource (distinct : Distinct v) : Distinct (redactResource kind v) := by
  intro p fields object
  have text {q : Place} (before : q <+: p) (apart : Concealed kind v q ∨ q = appliedPlace) :
      False := by
    obtain ⟨u, above⟩ := present_above before object
    have text : ∃ s, u = .str s := by
      rcases apart with concealed | rfl
      · exact ⟨_, redacted_of_concealed (.inl concealed) above⟩
      · exact text_of_rewritten (.inr rfl) above
    obtain ⟨s, rfl⟩ := text
    obtain rfl := end_of_text above before object
    rw [above] at object
    cases object
  obtain ⟨u, there, eq⟩ := agree_redactResource.symm.present (fun q before => text before) object
  cases u with
  | obj others =>
    have keys : others.map (·.1) = fields.map (·.1) := by simpa [front] using eq
    rw [← keys]
    exact distinct p others there
  | _ => simp [front] at eq

/-- Where two objects first conceal something, both do. -/
theorem Concealed.of_agree (concealed : Concealed kind v p)
    (agree : AgreeBut (fun p => Concealed kind v p ∧ Concealed kind w p) v w)
    (first : ∀ q, q <+: p → Concealed kind v q → q = p) : Concealed kind w p := by
  rcases concealed with sensitive | secret
  · by_contra exposed
    refine exposed (.inl (sensitive.of_agree agree ?_ ?_))
    · intro q before both
      obtain rfl := first q before both.1
      exact exposed both.2
    · rintro q rfl ⟨named | secret, _⟩
      · exact not_sensitive_at_name named
      · exact exposed (.inr (secret.sibling "value"))
  · exact .inr secret

/-- An entry that is concealed in two objects leaves the same in both. -/
theorem below?_redacted_of_concealed (left : Concealed kind v (q ++ [.key k]))
    (right : Concealed kind w (q ++ [.key k]))
    (present : ((redactResource kind v).below? (q ++ [.key k])).isSome =
      ((redactResource kind w).below? (q ++ [.key k])).isSome) :
    (redactResource kind v).below? (q ++ [.key k]) =
      (redactResource kind w).below? (q ++ [.key k]) := by
  cases first : (redactResource kind v).below? (q ++ [.key k]) with
  | none =>
    rw [first] at present
    exact (Option.isNone_iff_eq_none.mp (by simpa using present.symm)).symm
  | some u =>
    rw [first] at present
    obtain ⟨x, second⟩ := Option.isSome_iff_exists.mp present.symm
    rw [second, redacted_of_concealed (.inl left) first, redacted_of_concealed (.inl right) second]

theorem redactResource_congr (distinct : Distinct v)
    (agree : AgreeBut (fun p => Concealed kind v p ∧ Concealed kind w p) v w) :
    redactResource kind v = redactResource kind w := by
  refine eq_of_fronts (distinct_redactResource distinct) fun p => ?_
  by_cases passes : ∃ q, q <+: p ∧ (Concealed kind v q ∨ Concealed kind w q ∨ q = appliedPlace)
  · -- What is seen at `p` comes from the first place on the way where the masking did something.
    obtain ⟨_, onWay, found⟩ := passes
    obtain ⟨q, before, found, first⟩ := exists_first
      (fun q => Concealed kind v q ∨ Concealed kind w q ∨ q = appliedPlace) onWay found
    have same : (redactResource kind v).below? q = (redactResource kind w).below? q := by
      by_cases both : Concealed kind v q ∧ Concealed kind w q
      · obtain ⟨r, k, rfl⟩ := both.1.last
        have above (m : Place) (up : m <+: r) :
            ¬ (Concealed kind v m ∨ Concealed kind w m ∨ m = appliedPlace) := by
          intro held
          have whole := first m (up.trans (List.prefix_append ..)) held
          have short := up.length_le
          rw [whole] at short
          simp at short
        refine below?_redacted_of_concealed both.1 both.2 ?_
        calc ((redactResource kind v).below? (r ++ [.key k])).isSome
            = (v.below? (r ++ [.key k])).isSome := by
              refine (agree_redactResource.isSome_key fun m up held => above m up ?_).symm
              exact held.imp_right .inr
          _ = (w.below? (r ++ [.key k])).isSome :=
              agree.isSome_key fun m up held => above m up (.inl held.1)
          _ = ((redactResource kind w).below? (r ++ [.key k])).isSome := by
              refine agree_redactResource.isSome_key fun m up held => above m up ?_
              exact .inr held
      · have exposedLeft : ¬ Concealed kind v q := fun concealed =>
          both ⟨concealed, concealed.of_agree agree fun m up held => first m up (.inl held)⟩
        have exposedRight : ¬ Concealed kind w q := fun concealed =>
          both ⟨concealed.of_agree (agree.symm.mono fun _ held => held.symm)
            fun m up held => first m up (.inr (.inl held)), concealed⟩
        obtain rfl : q = appliedPlace := by tauto
        have seen := agree appliedPlace fun m up held => by
          obtain rfl := first m up (.inl held.1)
          exact exposedLeft held.1
        rw [below?_redacted_applied, below?_redacted_applied]
        cases left : v.below? appliedPlace with
        | none =>
          rw [left] at seen
          rw [Option.map_eq_none_iff.mp seen.symm]
        | some a =>
          rw [left] at seen
          obtain ⟨b, right, front⟩ := Option.map_eq_some_iff.mp seen.symm
          rw [right, Option.map_some, Option.map_some, redactLastApplied_congr front.symm]
    obtain ⟨rest, rfl⟩ := before
    rw [below?_append, below?_append, same]
  · have clear (q : Place) (before : q <+: p) :
        ¬ (Concealed kind v q ∨ Concealed kind w q ∨ q = appliedPlace) :=
      fun held => passes ⟨q, before, held⟩
    calc ((redactResource kind v).below? p).map front
        = (v.below? p).map front := by
          refine (agree_redactResource p fun q before held => clear q before ?_).symm
          exact held.imp_right .inr
      _ = (w.below? p).map front := agree p fun q before held => clear q before (.inl held.1)
      _ = ((redactResource kind w).below? p).map front := by
          refine agree_redactResource p fun q before held => clear q before ?_
          exact .inr held

end Redaction

/-- What is kept of a resource. Credentials that are included stay. Otherwise every concealed place
holds the mark, nothing else has changed but the annotation, and resources that differ only in what
is concealed are kept as one and the same. -/
theorem keptResource_masks (o : Options) (kind : String) (v : Json) :
    if o.includeSensitiveData then keptResource o kind v = v
    else
      (∀ p u, Concealed kind v p ∨ Concealed kind (keptResource o kind v) p →
        (keptResource o kind v).below? p = some u → u = .str redacted) ∧
      AgreeBut (fun p => Concealed kind v p ∨ p = appliedPlace) v (keptResource o kind v) ∧
      (Distinct v → ∀ w, AgreeBut (fun p => Concealed kind v p ∧ Concealed kind w p) v w →
        keptResource o kind v = keptResource o kind w) := by
  unfold keptResource
  by_cases included : o.includeSensitiveData = true
  · simp only [included, if_true]
  · simp only [included]
    refine ⟨?_, agree_redactResource, ?_⟩
    · intro p u concealed present
      exact redacted_of_concealed concealed present
    · intro distinct w agree
      exact redactResource_congr distinct agree

def gatewayPod (token key : String) : Json := .obj [
  ("metadata", .obj [("name", .str "gateway")]),
  ("spec", .obj [
    ("env", .obj [("name", .str "BROKER_TOKEN"), ("value", .str token)]),
    ("psk", .str key)])]

theorem distinct_gatewayPod (token key : String) : Distinct (gatewayPod token key) := by
  have metadata : Distinct (.obj [("name", .str "gateway")]) :=
    distinct_obj (by simp) (by simp [distinct_text])
  have env : Distinct (.obj [("name", .str "BROKER_TOKEN"), ("value", .str token)]) :=
    distinct_obj (by simp) (by simp [distinct_text])
  have spec : Distinct (.obj [
      ("env", .obj [("name", .str "BROKER_TOKEN"), ("value", .str token)]),
      ("psk", .str key)]) :=
    distinct_obj (by simp) (by simp [distinct_text, env])
  exact distinct_obj (by simp) (by simp [metadata, spec])

theorem agree_gatewayPods (token token' key key' : String) : AgreeBut
    (fun p => Concealed "Pod" (gatewayPod token key) p ∧
      Concealed "Pod" (gatewayPod token' key') p)
    (gatewayPod token key) (gatewayPod token' key') := by
  have tokens (token key : String) : Concealed "Pod" (gatewayPod token key)
      [.key "spec", .key "env", .key "value"] :=
    .inl (.besideName (q := [.key "spec", .key "env"]) (by decide) rfl rfl)
  have keys (token key : String) : Concealed "Pod" (gatewayPod token key)
      [.key "spec", .key "psk"] :=
    .inl (.underKey (q := [.key "spec"]) (by decide) rfl)
  refine AgreeBut.trans (v := gatewayPod token' key) ?_ ?_
  · show AgreeBut _ _ (mapField "spec" (mapField "env" (mapField "value" fun _ => .str token'))
      (gatewayPod token key))
    refine agree_mapField fun _ _ => agree_mapField fun _ _ => agree_mapField fun _ _ p clear => ?_
    exact absurd ⟨tokens _ _, tokens _ _⟩ (clear [] (List.nil_prefix ..))
  · show AgreeBut _ _ (mapField "spec" (mapField "psk" fun _ => .str key') (gatewayPod token' key))
    refine agree_mapField fun _ _ => agree_mapField fun _ _ p clear => ?_
    exact absurd ⟨keys _ _, keys _ _⟩ (clear [] (List.nil_prefix ..))

/-- Two pods with different credentials are kept as one and the same. -/
theorem keptResource_gatewayPods : gatewayPod "eyJhb" "c2Vj" ≠ gatewayPod "bXlUb" "cmV0" ∧
    keptResource ⟨[], [], "", false⟩ "Pod" (gatewayPod "eyJhb" "c2Vj") =
      keptResource ⟨[], [], "", false⟩ "Pod" (gatewayPod "bXlUb" "cmV0") := by
  have masks := keptResource_masks ⟨[], [], "", false⟩ "Pod" (gatewayPod "eyJhb" "c2Vj")
  rw [if_neg (by decide)] at masks
  obtain ⟨_, _, alike⟩ := masks
  exact ⟨by decide, alike (distinct_gatewayPod _ _) _ (agree_gatewayPods _ _ _ _)⟩

end MultiCluster.Gather
