import Mathlib.Data.String.Basic
import MultiCluster.Image
import MultiCluster.Proofs.BlockText

/-! Overrides of images. A list of entries is accepted exactly if each of them assigns an image to a
known name, and the last entry for a name counts. What is not overridden is put together from the
repository, the name and the version. -/
namespace MultiCluster

namespace Text

namespace Table

variable {table : Table} {key value other : String}

def keys (table : Table) : List String := table.map Prod.fst

def Ascending (table : Table) : Prop := table.keys.Pairwise (· < ·)

theorem ascending_nil : Ascending [] := List.Pairwise.nil

@[simp] theorem find?_insert_self : (table.insert key value).find? key = some value := by
  induction table with
  | nil => simp [insert, find?]
  | cons head rest ih =>
    obtain ⟨k, v⟩ := head
    by_cases same : k = key
    · simp [insert, find?, same]
    · by_cases before : key < k
      · simp [insert, find?, same, before]
      · simp [insert, find?, same, before, ih]

theorem find?_insert_of_ne (apart : other ≠ key) :
    (table.insert key value).find? other = table.find? other := by
  induction table with
  | nil => simp [insert, find?, apart.symm]
  | cons head rest ih =>
    obtain ⟨k, v⟩ := head
    by_cases same : k = key
    · simp [insert, find?, same, apart.symm]
    · by_cases before : key < k
      · simp [insert, find?, same, before, apart.symm]
      · simp [insert, find?, same, before, ih]

theorem mem_keys_insert : other ∈ (table.insert key value).keys ↔ other = key ∨ other ∈ table.keys := by
  induction table with
  | nil => simp [insert, keys]
  | cons head rest ih =>
    obtain ⟨k, v⟩ := head
    by_cases same : k = key
    · subst same
      simp [insert, keys]
    · by_cases before : key < k
      · simp [insert, keys, same, before]
      · simp only [insert, beq_iff_eq, same, before, if_false, keys, List.map_cons,
          List.mem_cons] at ih ⊢
        rw [ih]
        tauto

theorem Ascending.insert (ascending : table.Ascending) : (table.insert key value).Ascending := by
  induction table with
  | nil => simp [Ascending, Table.insert, keys]
  | cons head rest ih =>
    obtain ⟨k, v⟩ := head
    obtain ⟨first, later⟩ := List.pairwise_cons.mp ascending
    by_cases same : k = key
    · subst same
      simpa [Ascending, Table.insert, keys] using ascending
    · by_cases before : key < k
      · simp only [Ascending, Table.insert, beq_iff_eq, same, before, if_false, if_true]
        refine List.pairwise_cons.mpr ⟨fun other member => ?_, ascending⟩
        rcases List.mem_cons.mp member with rfl | inRest
        · exact before
        · exact before.trans (first other inRest)
      · simp only [Ascending, Table.insert, beq_iff_eq, same, before, if_false]
        refine List.pairwise_cons.mpr ⟨fun other member => ?_, ih later⟩
        rcases mem_keys_insert.mp member with rfl | inRest
        · exact lt_of_le_of_ne (not_lt.mp before) same
        · exact first other inRest

end Table
end Text

namespace Image

variable {entry name image name' image' : String} {entries : List String}
  {table table' : Text.Table}

/-- An entry gives a known name an image: the name stands before the first equals sign, and all that
follows it is the image, further equals signs included. -/
structure Assigns (entry name image : String) : Prop where
  named : name ∈ known
  first : '=' ∉ name.toList
  given : image ≠ ""
  text : entry = name ++ "=" ++ image

theorem splitOverride_eq_some_iff : splitOverride entry = some (name, image) ↔
    '=' ∉ name.toList ∧ name ≠ "" ∧ image ≠ "" ∧ entry = name ++ "=" ++ image := by
  have chars : entry = name ++ "=" ++ image ↔ entry.toList = name.toList ++ '=' :: image.toList := by
    rw [← String.toList_inj]
    simp
  have nonempty (s : String) : s ≠ "" ↔ s.toList ≠ [] := by
    rw [← String.toList_inj.ne]
    rfl
  rw [chars, nonempty, nonempty]
  constructor
  · intro split
    unfold splitOverride at split
    split at split
    · next c before d after cut =>
      obtain ⟨rfl, rfl⟩ := Prod.mk.inj (Option.some.inj split)
      obtain ⟨free, whole⟩ := Text.splitAtFirst_eq_some_iff.mp cut
      simp only [String.toList_ofList]
      exact ⟨free, List.cons_ne_nil _ _, List.cons_ne_nil _ _, whole⟩
    · cases split
  · rintro ⟨free, named, given, whole⟩
    have cut : Text.splitAtFirst '=' entry.toList = some (name.toList, image.toList) :=
      Text.splitAtFirst_eq_some_iff.mpr ⟨free, whole⟩
    obtain ⟨c, before, front⟩ := List.exists_cons_of_ne_nil named
    obtain ⟨d, after, back⟩ := List.exists_cons_of_ne_nil given
    rw [front, back] at cut
    rw [splitOverride, cut]
    simp only [← front, ← back, String.ofList_toList]

theorem parseOverride_ok_iff : parseOverride entry = .ok (name, image) ↔
    Assigns entry name image := by
  have nonempty : name ∈ known → name ≠ "" := by
    rintro member rfl
    revert member
    decide
  constructor
  · intro parsed
    unfold parseOverride at parsed
    split at parsed
    · cases parsed
    · next cut =>
      split at parsed
      · next member =>
        obtain ⟨rfl, rfl⟩ := Prod.mk.inj (Except.ok.inj parsed)
        obtain ⟨free, -, given, text⟩ := splitOverride_eq_some_iff.mp cut
        exact ⟨by simpa using member, free, given, text⟩
      · cases parsed
  · intro assigns
    have cut := splitOverride_eq_some_iff.mpr
      ⟨assigns.first, nonempty assigns.named, assigns.given, assigns.text⟩
    simp [parseOverride, cut, assigns.named]

theorem Assigns.unique (one : Assigns entry name image) (other : Assigns entry name' image') :
    name = name' ∧ image = image' := by
  have same := (parseOverride_ok_iff.mpr one).symm.trans (parseOverride_ok_iff.mpr other)
  exact Prod.mk.inj (Except.ok.inj same)

inductive LastAssigned (name image : String) : List String → Prop
  | here {entry : String} {rest : List String} (assigns : Assigns entry name image)
      (last : ∀ later ∈ rest, ∀ other, ¬Assigns later name other) :
      LastAssigned name image (entry :: rest)
  | later {entry : String} {rest : List String} (last : LastAssigned name image rest) :
      LastAssigned name image (entry :: rest)

def Unassigned (name : String) (entries : List String) : Prop :=
  ∀ entry ∈ entries, ∀ image, ¬Assigns entry name image

theorem unassigned_cons {entry : String} : Unassigned name (entry :: entries) ↔
    (∀ image, ¬Assigns entry name image) ∧ Unassigned name entries :=
  List.forall_mem_cons

theorem lastAssigned_cons {entry : String} : LastAssigned name image (entry :: entries) ↔
    LastAssigned name image entries ∨ Assigns entry name image ∧ Unassigned name entries := by
  constructor
  · intro last
    cases last with
    | here assigns last => exact .inr ⟨assigns, last⟩
    | later last => exact .inl last
  · rintro (last | ⟨assigns, last⟩)
    · exact .later last
    · exact .here assigns last

theorem not_unassigned_of_last (last : LastAssigned name image entries) :
    ¬Unassigned name entries := by
  induction last with
  | here assigns _ => exact fun free => free _ List.mem_cons_self _ assigns
  | later _ ih => exact fun free => ih (unassigned_cons.mp free).2

/-- What one entry does to a table. -/
theorem overridesFrom_cons_ok_iff : overridesFrom table (entry :: entries) = .ok table' ↔
    ∃ name image, Assigns entry name image ∧
      overridesFrom (table.insert name image) entries = .ok table' := by
  rw [overridesFrom]
  cases parsed : parseOverride entry with
  | error e =>
    have none (name image : String) : ¬Assigns entry name image := by
      intro assigns
      rw [parseOverride_ok_iff.mpr assigns] at parsed
      cases parsed
    simp [bind, Except.bind, none]
  | ok pair =>
    have assigns : Assigns entry pair.1 pair.2 := parseOverride_ok_iff.mp parsed
    simp only [bind, Except.bind]
    constructor
    · exact fun went => ⟨_, _, assigns, went⟩
    · rintro ⟨name, image, assigns', went⟩
      obtain ⟨rfl, rfl⟩ := assigns.unique assigns'
      exact went

theorem exists_overridesFrom_iff : (∃ table', overridesFrom table entries = .ok table') ↔
    ∀ entry ∈ entries, ∃ name image, Assigns entry name image := by
  induction entries generalizing table with
  | nil => simp [overridesFrom]
  | cons entry rest ih =>
    simp only [overridesFrom_cons_ok_iff, List.forall_mem_cons]
    constructor
    · rintro ⟨table', name, image, assigns, went⟩
      exact ⟨⟨name, image, assigns⟩, ih.mp ⟨table', went⟩⟩
    · rintro ⟨⟨name, image, assigns⟩, others⟩
      obtain ⟨table', went⟩ := ih.mpr others
      exact ⟨table', name, image, assigns, went⟩

/-- After all entries, a name has the image of the last entry for it, or the one that it had. -/
theorem find?_overridesFrom (parsed : overridesFrom table entries = .ok table') :
    table'.find? name = some image ↔ LastAssigned name image entries ∨
      Unassigned name entries ∧ table.find? name = some image := by
  induction entries generalizing table with
  | nil =>
    obtain rfl := Except.ok.inj parsed
    have never : ¬LastAssigned name image [] := by rintro ⟨⟩
    simp [Unassigned, never]
  | cons entry rest ih =>
    obtain ⟨named, given, assigns, went⟩ := overridesFrom_cons_ok_iff.mp parsed
    rw [ih went, lastAssigned_cons, unassigned_cons]
    by_cases same : name = named
    · subst same
      have own (other : String) : Assigns entry name other ↔ given = other := by
        constructor
        · exact fun assigns' => (assigns.unique assigns').2
        · rintro rfl
          exact assigns
      simp [own]
      tauto
    · have other (i : String) : ¬Assigns entry name i := fun assigns' =>
        same (assigns'.unique assigns).1
      rw [Text.Table.find?_insert_of_ne same]
      simp [other]

theorem keys_overridesFrom (ascending : table.Ascending)
    (parsed : overridesFrom table entries = .ok table') : table'.Ascending ∧
      ∀ name, name ∈ table'.keys ↔ name ∈ table.keys ∨ ¬Unassigned name entries := by
  induction entries generalizing table with
  | nil =>
    obtain rfl := Except.ok.inj parsed
    exact ⟨ascending, fun name => by simp [Unassigned]⟩
  | cons entry rest ih =>
    obtain ⟨named, given, assigns, went⟩ := overridesFrom_cons_ok_iff.mp parsed
    obtain ⟨ascending', same⟩ := ih ascending.insert went
    refine ⟨ascending', fun name => ?_⟩
    have assigned : (∃ image, Assigns entry name image) ↔ name = named := by
      constructor
      · exact fun ⟨image, assigns'⟩ => (assigns'.unique assigns).1
      · rintro rfl
        exact ⟨given, assigns⟩
    rw [same, Text.Table.mem_keys_insert, unassigned_cons, ← assigned, not_and_or]
    simp only [not_forall, not_not]
    tauto

theorem invalid_of_overridesFrom {e : Error} (refused : overridesFrom table entries = .error e) :
    ∃ m, e = .invalidConfiguration m := by
  induction entries generalizing table with
  | nil => cases refused
  | cons entry rest ih =>
    rw [overridesFrom] at refused
    cases parsed : parseOverride entry with
    | ok pair =>
      simp only [parsed, bind, Except.bind] at refused
      exact ih refused
    | error e' =>
      simp only [parsed, bind, Except.bind] at refused
      obtain rfl := Except.error.inj refused
      unfold parseOverride at parsed
      split at parsed
      · exact ⟨_, (Except.error.inj parsed).symm⟩
      · split at parsed
        · cases parsed
        · exact ⟨_, (Except.error.inj parsed).symm⟩

/-! ### References -/

section References

variable {given base version reference : String}

structure Bare (given base : String) : Prop where
  slashes : ∃ n, given.toList = base.toList ++ List.replicate n '/'
  ends : base.toList.getLast? ≠ some '/'

theorem bare_dropTrailing : Bare given (dropTrailing '/' given) where
  slashes := by
    have run : ∀ c ∈ given.toList.reverse.takeWhile (· == '/'), c = '/' := by
      intro c member
      simpa using List.mem_takeWhile_imp member
    refine ⟨(given.toList.reverse.takeWhile (· == '/')).length, ?_⟩
    rw [dropTrailing, String.toList_ofList, ← List.reverse_replicate,
      ← List.eq_replicate_length.mpr run, ← List.reverse_append, List.takeWhile_append_dropWhile,
      List.reverse_reverse]
  ends := by
    rw [dropTrailing, String.toList_ofList, List.getLast?_reverse]
    intro slash
    have stop := List.head?_dropWhile_not (· == '/') given.toList.reverse
    rw [slash] at stop
    cases stop

/-- A text has one such form. -/
theorem dropTrailing_of_bare (bare : Bare given base) : dropTrailing '/' given = base := by
  obtain ⟨n, whole⟩ := bare.slashes
  have run : (List.replicate n '/').dropWhile (· == '/') = [] := by simp
  have stop : base.toList.reverse.dropWhile (· == '/') = base.toList.reverse := by
    cases back : base.toList.reverse with
    | nil => rfl
    | cons c rest =>
      have last : base.toList.getLast? = some c := by rw [← List.head?_reverse, back]; rfl
      have other : c ≠ '/' := by
        rintro rfl
        exact bare.ends last
      simp [other]
  rw [dropTrailing, whole, List.reverse_append, List.reverse_replicate, List.dropWhile_append, run]
  simp only [List.isEmpty_nil, if_true, stop, List.reverse_reverse, String.ofList_toList]

theorem isDigest_iff : isDigest version = true ↔ ∃ digest, version = "sha256:" ++ digest := by
  rw [isDigest, List.isPrefixOf_iff_prefix]
  constructor
  · rintro ⟨digest, whole⟩
    refine ⟨String.ofList digest, ?_⟩
    rw [← String.toList_inj, ← whole]
    simp
  · rintro ⟨digest, rfl⟩
    exact ⟨digest.toList, by simp⟩

/-- What a name stands for in a repository at a version: repository, name and version, with the
defaults for what is empty, no slash at the end of the repository, and an at sign before a
digest. -/
inductive Composed (repository version name : String) : String → Prop
  | mk {base tag mark : String}
    (based : repository = "" ∧ base = defaultRepository ∨ repository ≠ "" ∧ Bare repository base)
    (tagged : version = "" ∧ tag = defaultVersion ∨ version ≠ "" ∧ tag = version)
    (marked : (∃ digest, tag = "sha256:" ++ digest) ∧ mark = "@" ∨
      (¬∃ digest, tag = "sha256:" ++ digest) ∧ mark = ":") :
    Composed repository version name (base ++ "/" ++ name ++ mark ++ tag)

variable {repository : String}

theorem based_iff : repository = "" ∧ base = defaultRepository ∨
    repository ≠ "" ∧ Bare repository base ↔
      base = (Source.of repository version table).repository := by
  by_cases empty : repository = ""
  · simp [empty, Source.of]
  · simp only [empty, false_and, ne_eq, not_false_eq_true, true_and, false_or, Source.of, beq_iff_eq,
      if_false]
    constructor
    · exact fun bare => (dropTrailing_of_bare bare).symm
    · rintro rfl
      exact bare_dropTrailing

theorem tagged_iff {tag : String} : version = "" ∧ tag = defaultVersion ∨
    version ≠ "" ∧ tag = version ↔ tag = (Source.of repository version table).version := by
  by_cases empty : version = ""
  · simp [empty, Source.of]
  · simp [empty, Source.of]

theorem marked_iff {tag mark : String} : (∃ digest, tag = "sha256:" ++ digest) ∧ mark = "@" ∨
    (¬∃ digest, tag = "sha256:" ++ digest) ∧ mark = ":" ↔
      mark = if isDigest tag then "@" else ":" := by
  rw [← isDigest_iff]
  by_cases digest : isDigest tag = true
  · simp [digest]
  · simp [digest]

theorem resolve_eq_iff_composed (free : table.find? name = none) :
    (Source.of repository version table).resolve name = reference ↔
      Composed repository version name reference := by
  have overrides : (Source.of repository version table).overrides = table := rfl
  simp only [Source.resolve, overrides, free]
  constructor
  · rintro rfl
    exact .mk (based_iff.mpr rfl) (tagged_iff.mpr rfl) (marked_iff.mpr rfl)
  · rintro ⟨based, tagged, marked⟩
    rw [marked_iff.mp marked, based_iff.mp based, tagged_iff.mp tagged]

end References

/-- Entries are accepted exactly if each of them gives a known name an image, and what is not
accepted is an invalid configuration. The table then holds the names that are given an image, with
the image of the last entry for them, each name once. In a repository and at a version, a name in
a table stands for the image in it, and any other name for the reference composed of the three. -/
theorem overrides_exact (entries : List String) :
    ((∃ table, parseOverrides entries = .ok table) ↔
      ∀ entry ∈ entries, ∃ name image, Assigns entry name image) ∧
    (∀ e, parseOverrides entries = .error e → ∃ m, e = .invalidConfiguration m) ∧
    (∀ table, parseOverrides entries = .ok table → table.Ascending ∧
      (∀ name, name ∈ table.keys ↔ ∃ entry ∈ entries, ∃ image, Assigns entry name image) ∧
      ∀ name image, table.find? name = some image ↔ LastAssigned name image entries) ∧
    ∀ (table : Text.Table) (repository version name reference : String),
      (Source.of repository version table).resolve name = reference ↔
        table.find? name = some reference ∨
        table.find? name = none ∧ Composed repository version name reference := by
  refine ⟨exists_overridesFrom_iff, fun e => invalid_of_overridesFrom, fun table parsed => ?_,
    fun table repository version name reference => ?_⟩
  · obtain ⟨ascending, named⟩ := keys_overridesFrom Text.Table.ascending_nil parsed
    refine ⟨ascending, fun name => ?_, fun name image => ?_⟩
    · rw [named]
      simp [Text.Table.keys, Unassigned]
    · rw [find?_overridesFrom parsed]
      simp [Text.Table.find?]
  · cases found : table.find? name with
    | none => simp [resolve_eq_iff_composed found]
    | some image => simp [Source.resolve, Source.of, found]

/-- Of two images for a name the second counts, with the equals sign in it. -/
theorem overrides_exact_repeated :
    ∃ table, parseOverrides ["nettest=a:1", "nettest=b=c"] = .ok table ∧
      (Source.of "quay.io/example//" "1.0" table).resolve "nettest" = "b=c" ∧
      (Source.of "quay.io/example//" "1.0" table).resolve "lighthouse-agent" =
        "quay.io/example/lighthouse-agent:1.0" := by
  have first : Assigns "nettest=a:1" "nettest" "a:1" := ⟨by decide, by decide, by decide, rfl⟩
  have second : Assigns "nettest=b=c" "nettest" "b=c" := ⟨by decide, by decide, by decide, rfl⟩
  have other : Unassigned "lighthouse-agent" ["nettest=a:1", "nettest=b=c"] := by
    simp only [unassigned_cons]
    exact ⟨fun image assigns => absurd (assigns.unique first).1 (by decide),
      fun image assigns => absurd (assigns.unique second).1 (by decide), by simp [Unassigned]⟩
  obtain ⟨accepted, -, exact, resolves⟩ := overrides_exact ["nettest=a:1", "nettest=b=c"]
  obtain ⟨table, parsed⟩ := accepted.mpr (by simpa using ⟨⟨_, _, first⟩, ⟨_, _, second⟩⟩)
  obtain ⟨-, -, found⟩ := exact table parsed
  have free : table.find? "lighthouse-agent" = none :=
    Option.eq_none_iff_forall_ne_some.mpr fun image some =>
      not_unassigned_of_last ((found _ image).mp some) other
  refine ⟨table, parsed, (resolves _ _ _ _ _).mpr (.inl ?_),
    (resolves _ _ _ _ _).mpr (.inr ⟨free, ?_⟩)⟩
  · exact (found _ _).mpr (.later (.here second (by simp)))
  · have bare : Bare "quay.io/example//" "quay.io/example" := ⟨⟨2, rfl⟩, by decide⟩
    have tag : ¬∃ digest, "1.0" = "sha256:" ++ digest := by
      rw [← isDigest_iff]
      decide
    exact .mk (.inr ⟨by decide, bare⟩) (.inr ⟨by decide, rfl⟩) (.inr ⟨tag, rfl⟩)

end Image
end MultiCluster
