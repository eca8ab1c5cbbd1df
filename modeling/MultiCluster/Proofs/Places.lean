import Mathlib.Data.List.Induction
import Mathlib.Data.List.Sort
import MultiCluster.Proofs.Fields

/-! Places in JSON values, and what two values have in common that differ only at certain places.
At a place one sees what a value is without going further down: the keys of an object, the length of
an array, anything else as it is. A value in which no key repeats is what is seen at its places. -/
namespace MultiCluster.Json

inductive Turn where
  | key (k : String)
  | item (n : Nat)
  deriving DecidableEq, Repr

abbrev Place := List Turn

def turn? : Turn → Json → Option Json
  | .key k, v => v.get? k
  | .item n, .arr items => items[n]?
  | .item _, _ => none

def below? : Place → Json → Option Json
  | [], v => some v
  | t :: rest, v => (v.turn? t).bind (below? rest)

inductive Front where
  | scalar (v : Json)
  | array (length : Nat)
  | object (keys : List String)
  deriving DecidableEq, Repr

def front : Json → Front
  | .arr items => .array items.length
  | .obj fields => .object (fields.map (·.1))
  | v => .scalar v

/-- Two values look the same wherever one does not come through certain places. -/
def AgreeBut (apart : Place → Prop) (v w : Json) : Prop :=
  ∀ p, (∀ q, q <+: p → ¬ apart q) → (v.below? p).map front = (w.below? p).map front

def Distinct (v : Json) : Prop :=
  ∀ p fields, v.below? p = some (.obj fields) → (fields.map (·.1)).Nodup

variable {apart apart' : Place → Prop} {u v w : Json} {fields : Fields} {p q : Place} {t : Turn}
  {k s : String}

@[simp] theorem below?_nil : v.below? [] = some v := rfl

theorem below?_cons : v.below? (t :: p) = (v.turn? t).bind (below? p) := rfl

theorem below?_single : v.below? [t] = v.turn? t := by
  rw [below?_cons]
  cases v.turn? t <;> rfl

theorem below?_append : v.below? (p ++ q) = (v.below? p).bind (below? q) := by
  induction p generalizing v with
  | nil => rfl
  | cons t rest ih =>
    cases down : v.turn? t with
    | none => simp [below?_cons, down]
    | some u => simpa [below?_cons, down] using ih

theorem below?_snoc : v.below? (p ++ [t]) = (v.below? p).bind (turn? t) := by
  rw [below?_append]
  cases v.below? p with
  | none => rfl
  | some u => exact below?_single

/-- There is nothing below a text. -/
theorem end_of_text (text : v.below? q = some (.str s)) (inside : q <+: p)
    (present : v.below? p = some u) : q = p := by
  obtain ⟨rest, rfl⟩ := inside
  cases rest with
  | nil => simp
  | cons t rest =>
    rw [below?_append, text] at present
    cases t <;> simp [below?_cons, turn?, get?] at present

/-- A place above another one that holds something holds something. -/
theorem present_above (inside : q <+: p) (present : v.below? p = some u) :
    ∃ w, v.below? q = some w := by
  obtain ⟨rest, rfl⟩ := inside
  rw [below?_append] at present
  obtain ⟨w, held, _⟩ := Option.bind_eq_some_iff.mp present
  exact ⟨w, held⟩

theorem fields_of_key (present : v.below? (p ++ [.key k]) = some u) :
    ∃ fields, v.below? p = some (.obj fields) ∧ Fields.find? k fields = some u := by
  rw [below?_snoc] at present
  obtain ⟨w, held, down⟩ := Option.bind_eq_some_iff.mp present
  cases w with
  | obj fields => exact ⟨fields, held, down⟩
  | _ => simp [turn?, get?] at down

/-- Of the places on the way to a place that are of some kind, one comes first. -/
theorem exists_first (apart : Place → Prop) (inside : q <+: p) (found : apart q) :
    ∃ r, r <+: p ∧ apart r ∧ ∀ m, m <+: r → apart m → m = r := by
  induction p using List.reverseRecOn generalizing q with
  | nil =>
    obtain rfl : q = [] := List.prefix_nil.mp inside
    exact ⟨[], List.prefix_rfl, found, fun m before _ => List.prefix_nil.mp before⟩
  | append_singleton rest t ih =>
    by_cases earlier : ∃ m, m <+: rest ∧ apart m
    · obtain ⟨m, before, held⟩ := earlier
      obtain ⟨r, inside', found', first⟩ := ih before held
      exact ⟨r, inside'.trans (List.prefix_append ..), found', first⟩
    · have whole : q = rest ++ [t] := by
        rcases List.prefix_concat_iff.mp inside with same | before
        · exact same
        · exact absurd ⟨q, before, found⟩ earlier
      subst whole
      refine ⟨rest ++ [t], List.prefix_rfl, found, fun m before held => ?_⟩
      rcases List.prefix_concat_iff.mp before with same | before
      · exact same
      · exact absurd ⟨m, before, held⟩ earlier

theorem front_eq_scalar {x : Json} (same : v.front = .scalar x) : v = x := by
  cases v <;> simp [front] at same
  all_goals exact same

theorem AgreeBut.refl : AgreeBut apart v v := fun _ _ => rfl

theorem AgreeBut.symm (agree : AgreeBut apart v w) : AgreeBut apart w v :=
  fun p clear => (agree p clear).symm

theorem AgreeBut.trans (first : AgreeBut apart u v) (second : AgreeBut apart v w) :
    AgreeBut apart u w :=
  fun p clear => (first p clear).trans (second p clear)

theorem AgreeBut.mono (agree : AgreeBut apart v w) (wider : ∀ q, apart q → apart' q) :
    AgreeBut apart' v w :=
  fun p clear => agree p fun q inside held => clear q inside (wider q held)

theorem AgreeBut.present (agree : AgreeBut apart v w) (clear : ∀ q, q <+: p → ¬ apart q)
    (held : v.below? p = some u) : ∃ x, w.below? p = some x ∧ x.front = u.front := by
  have same := agree p clear
  rw [held] at same
  obtain ⟨x, there, eq⟩ := Option.map_eq_some_iff.mp same.symm
  exact ⟨x, there, eq⟩

theorem AgreeBut.text (agree : AgreeBut apart v w) (clear : ∀ q, q <+: p → ¬ apart q)
    (held : v.below? p = some (.str s)) : w.below? p = some (.str s) := by
  obtain ⟨x, there, eq⟩ := agree.present clear held
  rw [there, front_eq_scalar eq]

/-- Two values that look the same have the same keys there, whatever stands under them. -/
theorem AgreeBut.isSome_key (agree : AgreeBut apart v w) (clear : ∀ q, q <+: p → ¬ apart q) :
    (v.below? (p ++ [.key k])).isSome = (w.below? (p ++ [.key k])).isSome := by
  have onward {v w : Json} (agree : AgreeBut apart v w)
      (some : (v.below? (p ++ [.key k])).isSome) : (w.below? (p ++ [.key k])).isSome := by
    obtain ⟨u, held⟩ := Option.isSome_iff_exists.mp some
    obtain ⟨fields, object, found⟩ := fields_of_key held
    obtain ⟨x, there, eq⟩ := agree.present clear object
    cases x with
    | obj others =>
      have keys : others.map (·.1) = fields.map (·.1) := by simpa [front] using eq
      have listed : k ∈ others.map (·.1) := by
        rw [keys]
        exact List.mem_map_of_mem (Fields.mem_of_find? found)
      have lookup : w.below? (p ++ [.key k]) = Fields.find? k others := by
        rw [below?_snoc, there]
        rfl
      rw [lookup]
      cases search : Fields.find? k others with
      | some x => rfl
      | none =>
        obtain ⟨e, member, same⟩ := List.mem_map.mp listed
        exact absurd same (Fields.find?_eq_none_iff.mp search e member)
    | _ => simp [front] at eq
  exact Bool.eq_iff_iff.mpr ⟨onward agree, onward agree.symm⟩

/-- Values under the keys of two objects with the same keys, each once. -/
theorem fields_eq {as bs : Fields} (keys : as.map (·.1) = bs.map (·.1))
    (once : (as.map (·.1)).Nodup) (each : ∀ k, Fields.find? k as = Fields.find? k bs) :
    as = bs := by
  induction as generalizing bs with
  | nil => simpa using keys.symm
  | cons head rest ih =>
    obtain ⟨i, a⟩ := head
    cases bs with
    | nil => simp at keys
    | cons other others =>
      obtain ⟨j, b⟩ := other
      simp only [List.map_cons, List.cons.injEq] at keys
      obtain ⟨rfl, keys⟩ := keys
      simp only [List.map_cons, List.nodup_cons] at once
      have head : a = b := by simpa [Fields.find?] using each i
      have tail : rest = others := by
        refine ih keys once.2 fun k => ?_
        by_cases first : i = k
        · subst first
          have absent : ∀ es : Fields, i ∉ es.map (·.1) → Fields.find? i es = none :=
            fun es out => Fields.find?_eq_none_iff.mpr fun e member same =>
              out (same ▸ List.mem_map_of_mem member)
          rw [absent rest once.1, absent others (keys ▸ once.1)]
        · simpa [Fields.find?, first] using each k
      rw [head, tail]

/-- Ordered fields are what is found under the keys. -/
theorem eq_of_ascending {as bs : Fields} (left : Fields.Ascending as) (right : Fields.Ascending bs)
    (each : ∀ k, Fields.find? k as = Fields.find? k bs) : as = bs := by
  have listed {es : Fields} {k : String} : k ∈ es.map (·.1) ↔ Fields.find? k es ≠ none := by
    rw [Ne, Fields.find?_eq_none_iff]
    simp
  refine fields_eq (List.Pairwise.eq_of_mem_iff left right fun k => ?_) left.nodup each
  rw [listed, listed, each]

theorem Distinct.turn (distinct : Distinct v) (down : v.turn? t = some u) : Distinct u :=
  fun p fields held => distinct (t :: p) fields (by rw [below?_cons, down]; exact held)

theorem distinct_text : Distinct (.str s) := by
  intro p fields held
  cases p with
  | nil => cases held
  | cons t rest => cases t <;> cases held

theorem distinct_obj (once : (fields.map (·.1)).Nodup) (each : ∀ e ∈ fields, Distinct e.2) :
    Distinct (.obj fields) := by
  intro p others held
  cases p with
  | nil =>
    obtain rfl : fields = others := by simpa using held
    exact once
  | cons t rest =>
    cases t with
    | key k =>
      obtain ⟨u, found, below⟩ := Option.bind_eq_some_iff.mp held
      exact each _ (Fields.mem_of_find? found) rest others below
    | item n => cases held

theorem sizeOf_find? (found : Fields.find? k fields = some u) : sizeOf u < sizeOf (obj fields) := by
  have inside := List.sizeOf_lt_of_mem (Fields.mem_of_find? found)
  simp only [Prod.mk.sizeOf_spec, Json.obj.sizeOf_spec] at inside ⊢
  omega

/-- A value in which no key repeats is what one sees at its places. -/
theorem eq_of_fronts {v w : Json} (distinct : Distinct v)
    (same : ∀ p, (v.below? p).map front = (w.below? p).map front) : v = w := by
  have here : v.front = w.front := by simpa using same []
  have down (t : Turn) (p : Place) :
      ((v.turn? t).bind (below? p)).map front = ((w.turn? t).bind (below? p)).map front :=
    same (t :: p)
  -- What is under a turn of `v` stands under that turn of `w`, by the same theorem one step down.
  have under (t : Turn) {a : Json} (left : v.turn? t = some a) (smaller : sizeOf a < sizeOf v) :
      w.turn? t = some a := by
    cases right : w.turn? t with
    | none =>
      have absurdity := down t []
      simp [left, right] at absurdity
    | some b =>
      have equal : a = b :=
        eq_of_fronts (distinct.turn left) fun p => by simpa [left, right] using down t p
      rw [equal]
  cases v with
  | arr items =>
    cases w with
    | arr others =>
      have long : items.length = others.length := by simpa [front] using here
      refine congrArg Json.arr (List.ext_getElem long fun n before _ => ?_)
      have smaller : sizeOf items[n] < sizeOf (arr items) := by
        have inside := List.sizeOf_lt_of_mem (List.getElem_mem before)
        simp only [Json.arr.sizeOf_spec]
        omega
      have there := under (.item n) (List.getElem?_eq_getElem before) smaller
      obtain ⟨_, equal⟩ := List.getElem?_eq_some_iff.mp there
      exact equal.symm
    | _ => simp [front] at here
  | obj fields =>
    cases w with
    | obj others =>
      have keys : fields.map (·.1) = others.map (·.1) := by simpa [front] using here
      refine congrArg Json.obj (fields_eq keys (distinct [] fields rfl) fun k => ?_)
      cases left : Fields.find? k fields with
      | some a => exact (under (.key k) left (sizeOf_find? left)).symm
      | none =>
        cases right : Fields.find? k others with
        | none => rfl
        | some b =>
          have absurdity := down (.key k) []
          simp [turn?, get?, left, right] at absurdity
    | _ => simp [front] at here
  | _ => exact (front_eq_scalar here.symm).symm
termination_by sizeOf v

end MultiCluster.Json
