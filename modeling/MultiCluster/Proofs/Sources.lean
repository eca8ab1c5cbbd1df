import MultiCluster.Gateway.Openstack.Sources
import Mathlib.Data.List.Forall2

/-! What an installer's metadata and a list of clouds say, apart from the functions that read them.
A record in JSON is an object, where a field stands under its name and nowhere else, or an array,
where it stands in its place. A cloud is a mapping, in which a value that is missing or null is
none. -/
namespace MultiCluster

inductive Only {κ α : Type} (p : κ → Prop) : List (κ × α) → Option α → Prop
  | nowhere {items : List (κ × α)} (others : ∀ e ∈ items, ¬p e.1) : Only p items none
  | once {before after : List (κ × α)} {k : κ} {v : α} (here : p k)
      (others : ∀ e ∈ before ++ after, ¬p e.1) : Only p (before ++ (k, v) :: after) (some v)

section Only

variable {κ α : Type} {p : κ → Prop} {items : List (κ × α)} {k : κ} {v : α} {found : Option α}

theorem only_none_iff : Only p items none ↔ ∀ e ∈ items, ¬p e.1 :=
  ⟨fun | .nowhere others => others, .nowhere⟩

theorem only_nil_iff : Only p ([] : List (κ × α)) found ↔ found = none := by
  constructor
  · intro only
    generalize empty : ([] : List (κ × α)) = items at only
    cases only with
    | nowhere _ => rfl
    | once _ _ => simp at empty
  · rintro rfl
    exact .nowhere nofun

theorem only_cons_iff_of_key (here : p k) :
    Only p ((k, v) :: items) found ↔ found = some v ∧ Only p items none := by
  constructor
  · intro only
    generalize whole : (k, v) :: items = all at only
    cases only with
    | nowhere others =>
      subst whole
      exact absurd here (others (k, v) List.mem_cons_self)
    | @once before after k' v' _ others =>
      cases before with
      | nil =>
        obtain ⟨⟨rfl, rfl⟩, rfl⟩ := by simpa using whole
        exact ⟨rfl, .nowhere others⟩
      | cons e before =>
        obtain ⟨rfl, -⟩ := List.cons.inj whole
        exact absurd here (others (k, v) List.mem_cons_self)
  · rintro ⟨rfl, others⟩
    exact @Only.once _ _ _ [] items _ _ here (only_none_iff.mp others)

theorem only_cons_iff_of_not (besides : ¬p k) :
    Only p ((k, v) :: items) found ↔ Only p items found := by
  constructor
  · intro only
    generalize whole : (k, v) :: items = all at only
    cases only with
    | nowhere others =>
      subst whole
      exact .nowhere (List.forall_mem_cons.mp others).2
    | @once before after k' v' here others =>
      cases before with
      | nil =>
        obtain ⟨⟨rfl, rfl⟩, rfl⟩ := by simpa using whole
        exact absurd here besides
      | cons e before =>
        obtain ⟨rfl, rfl⟩ := List.cons.inj whole
        exact .once here (List.forall_mem_cons.mp others).2
  · intro only
    cases only with
    | nowhere others => exact .nowhere (List.forall_mem_cons.mpr ⟨besides, others⟩)
    | @once before after k' v' here others =>
      exact @Only.once _ _ _ ((k, v) :: before) after _ _ here
        (List.forall_mem_cons.mpr ⟨besides, others⟩)

end Only

theorem mapM_eq_some_iff {α β : Type} {f : α → Option β} {items : List α} {results : List β} :
    items.mapM f = some results ↔ List.Forall₂ (fun a b => f a = some b) items results := by
  induction items generalizing results with
  | nil => cases results <;> simp
  | cons a rest ih =>
    simp only [List.mapM_cons, Option.bind_eq_bind, Option.bind_eq_some_iff, Option.pure_def,
      Option.some.injEq, List.forall₂_cons_left_iff]
    constructor
    · rintro ⟨b, first, others, later, rfl⟩
      exact ⟨b, others, first, ih.mp later, rfl⟩
    · rintro ⟨b, others, first, later, rfl⟩
      exact ⟨b, first, others, ih.mpr later, rfl⟩

namespace Json.Document

variable {name first second : String} {members : List (Option String × Document)}
  {d : Document} {found u v : Option Document}

theorem onlyMember?_eq_some_iff :
    onlyMember? name members = some found ↔ Only (· = some name) members found := by
  induction members generalizing found with
  | nil => simp [onlyMember?, only_nil_iff, eq_comm]
  | cons e rest ih =>
    obtain ⟨key, d⟩ := e
    by_cases here : key = some name
    · rw [only_cons_iff_of_key (p := (· = some name)) here, ← ih]
      cases later : onlyMember? name rest with
      | none => simp [onlyMember?, later]
      | some found => cases found <;> simp [onlyMember?, later, here, eq_comm]
    · rw [only_cons_iff_of_not (p := (· = some name)) here, ← ih]
      cases later : onlyMember? name rest <;> simp [onlyMember?, later, here]

inductive IsRecord (fields : Nat) : Document → Prop
  | object {members : List (Option String × Document)} (legible : ∀ m ∈ members, m.1 ≠ none) :
      IsRecord fields (.object members)
  | array {items : List Document} (few : items.length ≤ fields) : IsRecord fields (.array items)

inductive Field (name : String) (place : Nat) : Document → Option Document → Prop
  | member {members : List (Option String × Document)} {v : Option Document}
      (only : Only (· = some name) members v) : Field name place (.object members) v
  | item {items : List Document} : Field name place (.array items) items[place]?

theorem isRecord_object_iff {fields : Nat} :
    IsRecord fields (.object members) ↔ members.all (fun m => m.1.isSome) = true := by
  simp only [List.all_eq_true, Option.isSome_iff_ne_none]
  exact ⟨fun | .object legible => legible, .object⟩

theorem field_object_iff {place : Nat} :
    Field name place (.object members) v ↔ onlyMember? name members = some v := by
  rw [onlyMember?_eq_some_iff]
  exact ⟨fun | .member only => only, .member⟩

theorem isRecord_array_iff {fields : Nat} {items : List Document} :
    IsRecord fields (.array items) ↔ items.length ≤ fields :=
  ⟨fun | .array few => few, .array⟩

theorem field_array_iff {place : Nat} {items : List Document} :
    Field name place (.array items) v ↔ v = items[place]? :=
  ⟨fun | .item => rfl, fun same => same ▸ .item⟩

theorem record?_one_iff :
    d.record? [name] = some [v] ↔ d.IsRecord 1 ∧ d.Field name 0 v := by
  cases d with
  | object members =>
    rw [isRecord_object_iff, field_object_iff]
    by_cases legible : members.all (fun m => m.1.isSome) = true
    · cases only : onlyMember? name members <;> simp [record?, fieldsOf, legible, only]
    · simp [record?, legible]
  | array items =>
    rw [isRecord_array_iff, field_array_iff]
    rcases items with _ | ⟨a, _ | ⟨b, rest⟩⟩ <;> simp [record?, eq_comm]
  | _ => exact ⟨nofun, nofun⟩

theorem record?_two_iff : d.record? [first, second] = some [u, v] ↔
    d.IsRecord 2 ∧ d.Field first 0 u ∧ d.Field second 1 v := by
  cases d with
  | object members =>
    rw [isRecord_object_iff, field_object_iff, field_object_iff]
    by_cases legible : members.all (fun m => m.1.isSome) = true
    · cases one : onlyMember? first members <;> cases two : onlyMember? second members <;>
        simp [record?, fieldsOf, legible, one, two]
    · simp [record?, legible]
  | array items =>
    rw [isRecord_array_iff, field_array_iff, field_array_iff]
    rcases items with _ | ⟨a, _ | ⟨b, _ | ⟨c, rest⟩⟩⟩ <;> simp [record?, eq_comm]
  | _ => exact ⟨nofun, nofun⟩

end Json.Document

namespace Gateway.Openstack

namespace Metadata

open Json (Document)

variable {text s : String} {m : Metadata} {v : Option Document}

/-- The text of a field, which is empty if the field is missing. -/
inductive TextOf : Option Document → String → Prop
  | missing : TextOf none ""
  | given {s : String} : TextOf (some (.string (some s))) s

inductive ProjectOf : Option Document → String → Prop
  | missing : ProjectOf none ""
  | given {platform : Document} {project : Option Document} {s : String}
      (record : platform.IsRecord 1) (field : platform.Field "projectID" 0 project)
      (text : TextOf project s) : ProjectOf (some platform) s

structure Describes (d : Document) (m : Metadata) : Prop where
  record : d.IsRecord 2
  infraId : ∃ v, d.Field "infraID" 0 v ∧ TextOf v m.infraId
  projectId : ∃ v, d.Field "rhos" 1 v ∧ ProjectOf v m.projectId

theorem optionalText?_eq_some_iff : optionalText? v = some s ↔ TextOf v s := by
  constructor
  · intro read
    cases v with
    | none =>
      obtain rfl := Option.some.inj read
      exact .missing
    | some d =>
      cases d with
      | string content =>
        obtain rfl : content = some s := read
        exact .given
      | _ => cases read
  · rintro (_ | _) <;> rfl

theorem project?_eq_some_iff : project? v = some s ↔ ProjectOf v s := by
  cases v with
  | none =>
    constructor
    · intro read
      obtain rfl := Option.some.inj read
      exact .missing
    · rintro ⟨⟩
      rfl
  | some platform =>
    have parts : project? (some platform) = some s ↔
        ∃ project, platform.record? ["projectID"] = some [project] ∧
          optionalText? project = some s := by
      cases record : platform.record? ["projectID"] with
      | none => simp [project?, record]
      | some fields => rcases fields with _ | ⟨project, _ | _⟩ <;> simp [project?, record]
    simp only [parts, Document.record?_one_iff, optionalText?_eq_some_iff]
    constructor
    · rintro ⟨project, ⟨record, field⟩, text⟩
      exact .given record field text
    · rintro (_ | ⟨record, field, text⟩)
      exact ⟨_, ⟨record, field⟩, text⟩

theorem parse?_eq_some_iff :
    parse? text = some m ↔ ∃ d, Document.parse? text = some d ∧ Describes d m := by
  have parts : parse? text = some m ↔ ∃ d, Document.parse? text = some d ∧
      ∃ infra rhos, d.record? ["infraID", "rhos"] = some [infra, rhos] ∧
        optionalText? infra = some m.infraId ∧ project? rhos = some m.projectId := by
    obtain ⟨infraId, projectId⟩ := m
    cases parsed : Document.parse? text with
    | none => simp [parse?, parsed]
    | some d =>
      cases record : d.record? ["infraID", "rhos"] with
      | none => simp [parse?, parsed, record]
      | some fields =>
        rcases fields with _ | ⟨infra, _ | ⟨rhos, _ | _⟩⟩ <;> simp [parse?, parsed, record]
        cases optionalText? infra <;> cases project? rhos <;> simp
  simp only [parts, Document.record?_two_iff, optionalText?_eq_some_iff, project?_eq_some_iff]
  refine exists_congr fun d => and_congr_right fun _ => ?_
  constructor
  · rintro ⟨infra, rhos, ⟨record, first, second⟩, infraText, projectText⟩
    exact ⟨record, ⟨infra, first, infraText⟩, ⟨rhos, second, projectText⟩⟩
  · rintro ⟨record, ⟨infra, first, infraText⟩, ⟨rhos, second, projectText⟩⟩
    exact ⟨infra, rhos, ⟨record, first, second⟩, infraText, projectText⟩

end Metadata

namespace Cloud

open Yaml (Node)

variable {yaml : Yaml.Reader} {text key : String} {n : Node} {entries sub : List (Node × Node)}
  {found : Option Node} {value : Option String} {cloud : Cloud} {clouds : List (String × Cloud)}

def Named (name : String) (n : Node) : Prop := ∃ plain, n = .scalar name plain

/-- A mapping with scalars for its keys; a document that says nothing is an empty one. -/
inductive Mapping : Node → List (Node × Node) → Prop
  | nothing : Mapping .nothing []
  | entries {entries : List (Node × Node)} (scalars : ∀ e ∈ entries, ∃ name, Named name e.1) :
      Mapping (.mapping entries) entries

inductive TextOf : Option Node → Option String → Prop
  | missing : TextOf none none
  | null {n : Node} (null : n.isNull = true) : TextOf (some n) none
  | given {s : String} {plain : Bool} (solid : (Node.scalar s plain).isNull = false) :
      TextOf (some (.scalar s plain)) (some s)

inductive Within : Option Node → List (Node × Node) → Prop
  | missing : Within none []
  | given {n : Node} {entries : List (Node × Node)} (mapping : Mapping n entries) :
      Within (some n) entries

def HasText (entries : List (Node × Node)) (key : String) (value : Option String) : Prop :=
  ∃ found, Only (Named key) entries found ∧ TextOf found value

def HasMapping (entries : List (Node × Node)) (key : String) (sub : List (Node × Node)) : Prop :=
  ∃ found, Only (Named key) entries found ∧ Within found sub

def Describes (n : Node) (cloud : Cloud) : Prop :=
  ∃ entries auth, Mapping n entries ∧ HasMapping entries "auth" auth ∧
    HasText auth "auth_url" cloud.authUrl ∧ HasText auth "project_id" cloud.projectId ∧
    HasText auth "project_name" cloud.projectName ∧ HasText entries "region_name" cloud.regionName

def Lists (n : Node) (clouds : List (String × Cloud)) : Prop :=
  ∃ entries sub, Mapping n entries ∧ HasMapping entries "clouds" sub ∧
    List.Forall₂ (fun e cloud => Named cloud.1 e.1 ∧ Describes e.2 cloud.2) sub clouds

theorem anyText?_eq_some_iff : n.anyText? = some key ↔ Named key n := by
  cases n <;> simp [Node.anyText?, Named]

theorem only?_eq_some_iff :
    Node.only? key entries = some found ↔ Only (Named key) entries found := by
  induction entries generalizing found with
  | nil => simp [Node.only?, only_nil_iff, eq_comm]
  | cons e rest ih =>
    obtain ⟨k, v⟩ := e
    by_cases here : Named key k
    · rw [only_cons_iff_of_key here, ← ih]
      have text := anyText?_eq_some_iff.mpr here
      cases later : Node.only? key rest with
      | none => simp [Node.only?, later]
      | some found => cases found <;> simp [Node.only?, later, text, eq_comm]
    · rw [only_cons_iff_of_not here, ← ih]
      have text : k.anyText? ≠ some key := fun same => here (anyText?_eq_some_iff.mp same)
      cases later : Node.only? key rest <;> simp [Node.only?, later, text]

theorem entries?_eq_some_iff :
    n.entries? = some entries ↔ n = .mapping entries ∨ n = .nothing ∧ entries = [] := by
  cases n with
  | scalar s plain =>
    have read : (Node.scalar s plain).entries? =
        if (Node.scalar s plain).isNothing then some [] else none := rfl
    rw [read]
    split
    · next empty =>
      unfold Node.isNothing at empty
      split at empty
      · next same => simp [same, Node.nothing, eq_comm]
      · cases empty
    · next solid =>
      have other : Node.scalar s plain ≠ .nothing := fun same => solid (same ▸ rfl)
      simp [other]
  | sequence items => simp [Node.entries?, Node.isNothing, Node.nothing]
  | mapping all => simp [Node.entries?, Node.nothing]

theorem fields?_eq_some_iff : fields? n = some entries ↔ Mapping n entries := by
  have scalars (items : List (Node × Node)) : (items.all fun e => e.1.anyText?.isSome) = true ↔
      ∀ e ∈ items, ∃ name, Named name e.1 := by
    simp only [List.all_eq_true, Option.isSome_iff_exists, anyText?_eq_some_iff]
  have parts : fields? n = some entries ↔ n.entries? = some entries ∧
      (entries.all fun e => e.1.anyText?.isSome) = true := by
    cases read : n.entries? with
    | none => simp [fields?, read]
    | some items =>
      simp only [fields?, read, Option.bind_eq_bind, Option.bind_some, Option.some.injEq]
      split
      · next legible =>
        exact ⟨fun same => Option.some.inj same ▸ ⟨rfl, legible⟩, fun same => same.1 ▸ rfl⟩
      · next illegible => exact ⟨nofun, fun same => absurd (same.1 ▸ same.2) illegible⟩
  rw [parts, entries?_eq_some_iff, scalars]
  constructor
  · rintro ⟨rfl | ⟨rfl, rfl⟩, legible⟩
    · exact .entries legible
    · exact .nothing
  · rintro (_ | legible)
    · exact ⟨.inr ⟨rfl, rfl⟩, nofun⟩
    · exact ⟨.inl rfl, legible⟩

theorem text?_eq_some_iff : text? key entries = some value ↔ HasText entries key value := by
  unfold HasText
  simp only [← only?_eq_some_iff]
  cases only : Node.only? key entries with
  | none => simp [text?, only]
  | some found =>
    simp only [Option.some.injEq, exists_eq_left']
    cases found with
    | none =>
      simp only [text?, only, Option.bind_eq_bind, Option.bind_some, Option.some.injEq]
      exact ⟨fun same => same ▸ .missing, fun | .missing => rfl⟩
    | some n =>
      simp only [text?, only, Option.bind_eq_bind, Option.bind_some]
      by_cases null : n.isNull = true
      · simp only [null, if_true, Option.some.injEq]
        constructor
        · rintro rfl
          exact .null null
        · rintro (_ | _ | solid)
          · rfl
          · exact absurd null (Bool.eq_false_iff.mp solid)
      · simp only [null, Bool.false_eq_true, if_false, Option.map_eq_some_iff, anyText?_eq_some_iff]
        constructor
        · rintro ⟨s, ⟨plain, rfl⟩, rfl⟩
          exact .given (Bool.eq_false_iff.mpr null)
        · rintro (_ | isNull | solid)
          · exact absurd isNull null
          · exact ⟨_, ⟨_, rfl⟩, rfl⟩

theorem child?_eq_some_iff : child? key entries = some sub ↔ HasMapping entries key sub := by
  unfold HasMapping
  simp only [← only?_eq_some_iff]
  cases only : Node.only? key entries with
  | none => simp [child?, only]
  | some found =>
    simp only [Option.some.injEq, exists_eq_left']
    cases found with
    | none =>
      simp only [child?, only, Option.bind_eq_bind, Option.bind_some, Option.some.injEq]
      exact ⟨fun same => same ▸ .missing, fun | .missing => rfl⟩
    | some n =>
      simp only [child?, only, Option.bind_eq_bind, Option.bind_some, fields?_eq_some_iff]
      exact ⟨.given, fun | .given mapping => mapping⟩

theorem ofNode?_eq_some_iff : ofNode? n = some cloud ↔ Describes n cloud := by
  obtain ⟨authUrl, projectId, projectName, regionName⟩ := cloud
  simp only [Describes, ← fields?_eq_some_iff, ← child?_eq_some_iff, ← text?_eq_some_iff, ofNode?,
    Option.bind_eq_bind, Option.bind_eq_some_iff, Option.pure_def, Option.some.injEq, mk.injEq]
  constructor
  · rintro ⟨entries, mapping, auth, within, _, url, _, id, _, name, _, region, rfl, rfl, rfl, rfl⟩
    exact ⟨entries, auth, mapping, within, url, id, name, region⟩
  · rintro ⟨entries, auth, mapping, within, url, id, name, region⟩
    exact ⟨entries, mapping, auth, within, _, url, _, id, _, name, _, region, rfl, rfl, rfl, rfl⟩

theorem allOf?_eq_some_iff : allOf? n = some clouds ↔ Lists n clouds := by
  have each (e : Node × Node) (cloud : String × Cloud) :
      (do pure (← e.1.anyText?, ← ofNode? e.2) : Option (String × Cloud)) = some cloud ↔
        Named cloud.1 e.1 ∧ Describes e.2 cloud.2 := by
    rw [← anyText?_eq_some_iff, ← ofNode?_eq_some_iff]
    obtain ⟨name, entry⟩ := cloud
    cases e.1.anyText? <;> cases ofNode? e.2 <;> simp
  simp only [Lists, ← fields?_eq_some_iff, ← child?_eq_some_iff, allOf?, Option.bind_eq_bind,
    Option.bind_eq_some_iff, mapM_eq_some_iff, ← each]
  constructor
  · rintro ⟨entries, mapping, sub, within, all⟩
    exact ⟨entries, sub, mapping, within, all⟩
  · rintro ⟨entries, sub, mapping, within, all⟩
    exact ⟨entries, mapping, sub, within, all⟩

theorem parse?_eq_some_iff : parse? yaml text = some clouds ↔
    ∃ n, yaml.document? text = some n ∧ Lists n clouds := by
  simp only [parse?, Option.bind_eq_bind, Option.bind_eq_some_iff, allOf?_eq_some_iff]

end Cloud

end Gateway.Openstack

end MultiCluster
