import MultiCluster.Proofs.Collecting
import MultiCluster.Proofs.FileNames
import MultiCluster.Proofs.KeyAgreement

/-! Every gathered item has a file of its own. A success means that all files could be written, and
then what was written is what was asked for and answered. If the source keeps to its answers, two
files in one place are files of one item with one text. -/
namespace MultiCluster.Gather

open Cluster (Kind)
open Files (Saving Tree Location)

variable {α β σ : Type} {o : Options} {cluster : String} {t t₁ t₂ : List Happening}

/-! ### A success means that all files could be written -/

section

variable {p : Program Requests α} {a : α} {b : β} {w w' : World σ}
  {source : (q : Question) → σ → Source.Answer q × σ}

def Happens : Program Requests α → List Happening → α → Prop
  | .done b, t, a => t = [] ∧ a = b
  | .never, _, _ => False
  | .ask r next, t, a => ∃ x rest, t = happening r x :: rest ∧ Happens (next x) rest a

theorem happens_of_run (ran : p.run (watching source) w = (some a, w')) :
    ∃ t, w'.happened = w.happened ++ t ∧ Happens p t a := by
  induction p generalizing w with
  | done b =>
    obtain ⟨same, rfl⟩ := Prod.mk.inj ran
    exact ⟨[], (List.append_nil _).symm, rfl, (Option.some.inj same).symm⟩
  | never => simp [Program.run] at ran
  | ask r next ih =>
    have step : ∃ x w₁, watching source r w = (some x, w₁) ∧
        w₁.happened = w.happened ++ [happening r x] := by
      rcases r with (q | s) | e
      · exact ⟨_, _, rfl, rfl⟩
      · exact ⟨_, _, rfl, rfl⟩
      · exact ⟨_, _, rfl, rfl⟩
    obtain ⟨x, w₁, answered, grown⟩ := step
    rw [Program.run_ask answered] at ran
    obtain ⟨t, later, happens⟩ := ih x ran
    refine ⟨happening r x :: t, ?_, x, t, rfl, happens⟩
    rw [later, grown, List.append_assoc]
    rfl

theorem happens_bind {f : α → Program Requests β} (happens : Happens (p.bind f) t b) :
    ∃ t₁ t₂ a, t = t₁ ++ t₂ ∧ Happens p t₁ a ∧ Happens (f a) t₂ b := by
  induction p generalizing t with
  | done a => exact ⟨[], t, a, rfl, ⟨rfl, rfl⟩, happens⟩
  | never => exact happens.elim
  | ask r next ih =>
    obtain ⟨x, rest, rfl, later⟩ := happens
    obtain ⟨t₁, t₂, a, rfl, first, second⟩ := ih x later
    exact ⟨happening r x :: t₁, t₂, a, rfl, ⟨x, t₁, rfl, first⟩, second⟩

theorem Written.append (first : Written t₁) (second : Written t₂) : Written (t₁ ++ t₂) := by
  intro s p member
  rcases List.mem_append.mp member with here | later
  · exact first s p here
  · exact second s p later

theorem written_asked {q : Question} {x : Source.Answer q} : Written [.asked q x] := by
  intro s p member
  simp at member

theorem written_told {e : Event} : Written [.told e] := by
  intro s p member
  simp at member

def Writes (good : α → Prop) (p : Program Requests α) : Prop :=
  ∀ t a, Happens p t a → good a → Written t

abbrev Thorough (work : Gathering α) : Prop := Writes (fun r => ∃ a, r = .ok a) work.run

theorem Thorough.bind {x : Gathering α} {f : α → Gathering β} (first : Thorough x)
    (second : ∀ a, Thorough (f a)) : Thorough (x >>= f) := by
  intro t result happens good
  rw [ExceptT.run_bind] at happens
  obtain ⟨t₁, t₂, r, rfl, before, after⟩ := happens_bind happens
  cases r with
  | ok a => exact (first t₁ _ before ⟨a, rfl⟩).append (second a t₂ result after good)
  | error e =>
    obtain ⟨rfl, rfl⟩ := after
    obtain ⟨b, failed⟩ := good
    cases failed

theorem Thorough.pure : Thorough (pure a : Gathering α) := by
  rintro t r ⟨rfl, rfl⟩ - s p member
  cases member

theorem happens_ask {q : Question} {f : Source.Answer q → Program Requests α}
    (happens : Happens ((ask q).bind f) t a) :
    ∃ x rest, t = [.asked q x] ++ rest ∧ Happens (f x) rest a :=
  happens

theorem happens_tell {e : Event} {f : Unit → Program Requests α}
    (happens : Happens ((tell e).bind f) t a) :
    ∃ rest, t = [.told e] ++ rest ∧ Happens (f ()) rest a := by
  obtain ⟨_, rest, rfl, later⟩ := happens
  exact ⟨rest, rfl, later⟩

theorem thorough_save {s : Saving} : Thorough (save s) := by
  rintro t r ⟨result, rest, rfl, rfl, rfl⟩ good
  change Except Files.Problem Unit at result
  cases result with
  | ok _ =>
    intro s' p member
    simp [happening] at member
  | error p =>
    obtain ⟨_, failed⟩ := good
    cases failed

theorem thorough_saveOne {s : Saving} : Thorough (do save s; pure 1 : Gathering Nat) :=
  thorough_save.bind fun _ => .pure

theorem thorough_total {work : α → Gathering Nat} {items : List α}
    (each : ∀ a, Thorough (work a)) : Thorough (total work items) := by
  induction items with
  | nil => exact .pure
  | cons a rest ih => exact (each a).bind fun _ => ih.bind fun _ => .pure

theorem happens_question {q : Question} {x : Source.Answer q} (happens : Happens (ask q) t x) :
    t = [.asked q x] := by
  obtain ⟨y, rest, rfl, rfl, rfl⟩ := happens
  rfl

theorem thorough_question {p : Program Requests (Except Error α)} {q : Question}
    (asks : ∀ t a, Happens p t a → ∃ x, t = [.asked q x]) : Thorough (.mk p) := by
  intro t a happens _
  obtain ⟨x, rfl⟩ := asks t a happens
  exact written_asked

theorem thorough_gatherLog {m : Module} {directory container : String} {pod : Pod} :
    Thorough (gatherLog o m directory pod container) := by
  intro t r happens good
  obtain ⟨answer, rest, rfl, later⟩ := happens_ask happens
  refine written_asked.append ?_
  change Except Error String at answer
  cases answer with
  | ok text => exact thorough_saveOne rest r later good
  | error e =>
    obtain ⟨_, rfl, rfl, rfl⟩ := happens_tell later
    exact written_told

theorem thorough_gatherLogs {m : Module} {directory : String} :
    Thorough (gatherLogs o m directory) :=
  thorough_total fun _ => (thorough_question fun _ _ asked => ⟨_, happens_question asked⟩).bind
    fun _ => thorough_total fun _ => thorough_total fun _ => thorough_gatherLog

theorem thorough_gatherResources {m : Module} {directory : String} :
    Thorough (gatherResources o m directory) :=
  thorough_total fun _ => (thorough_question fun _ _ asked => ⟨_, happens_question asked⟩).bind
    fun _ => thorough_total fun _ => thorough_saveOne

theorem thorough_partOf {p : Module × String} : Thorough (partOf o cluster p).work := by
  rw [partOf]
  split
  · exact thorough_gatherLogs
  · exact thorough_gatherResources

/-- A part whose work could not write all files reports a failure. -/
theorem writes_gather {p : Part} (thorough : Thorough p.work) :
    Writes (fun failure => failure = none) p.gather := by
  intro t failure happens good
  obtain ⟨later, rfl, working⟩ := happens_tell happens
  obtain ⟨inner, rest, count, rfl, worked, ending⟩ := happens_bind working
  refine written_told.append ?_
  cases count with
  | ok n =>
    obtain ⟨_, rfl, rfl, rfl⟩ := happens_tell ending
    exact (thorough inner _ worked ⟨n, rfl⟩).append written_told
  | error e =>
    obtain ⟨_, rfl, rfl, rfl⟩ := happens_tell ending
    cases good

theorem writes_gatherParts {ps : List Part} (thorough : ∀ p ∈ ps, Thorough p.work) :
    Writes (fun failures => failures = []) (gatherParts ps) := by
  induction ps with
  | nil =>
    rintro t failures ⟨rfl, rfl⟩ - s p member
    cases member
  | cons p rest ih =>
    intro t failures happens good
    obtain ⟨first, others⟩ := List.forall_mem_cons.mp thorough
    obtain ⟨here, _, failure, rfl, one, more⟩ := happens_bind happens
    obtain ⟨later, _, failures', rfl, all, rfl, rfl⟩ := happens_bind more
    obtain ⟨none, empty⟩ := List.append_eq_nil_iff.mp good
    refine (writes_gather first here failure one ?_).append ?_
    · simpa using none
    · rw [List.append_nil]
      exact ih others later failures' all empty

theorem thorough_collect : Thorough (collect o cluster) := by
  intro t result happens good
  obtain ⟨t₁, _, failures, rfl, gathered, rfl, rfl⟩ := happens_bind happens
  rw [List.append_nil]
  refine writes_gatherParts ?_ t₁ failures gathered ?_
  · rw [parts_eq]
    exact List.forall_mem_map.mpr fun p _ => thorough_partOf
  · obtain ⟨_, ok⟩ := good
    by_contra some
    rw [if_neg (by simpa using some)] at ok
    cases ok

end

/-! ### What a source keeps to -/

section

variable {answer : (q : Question) → Source.Answer q} {s : Saving} {n : Nat}
  {count : Except Error Nat}

def Answered (answer : (q : Question) → Source.Answer q) (t : List Happening) : Prop :=
  ∀ q x, .asked q x ∈ t → x = answer q

theorem Answered.left (answered : Answered answer (t₁ ++ t₂)) : Answered answer t₁ :=
  fun q x member => answered q x (List.mem_append_left _ member)

theorem Answered.right (answered : Answered answer (t₁ ++ t₂)) : Answered answer t₂ :=
  fun q x member => answered q x (List.mem_append_right _ member)

theorem happening_ne_asked {result : Except Files.Problem Unit} {q : Question}
    {x : Source.Answer q} : happening (.inl (.inr s)) result ≠ .asked q x := by
  intro same
  cases result <;> cases same

theorem answered_of_run {p : Program Requests α} {a : α} {w w' : World σ}
    {source : (q : Question) → σ → Source.Answer q × σ}
    (steady : ∀ q s, (source q s).1 = answer q) (before : Answered answer w.happened)
    (ran : p.run (watching source) w = (some a, w')) : Answered answer w'.happened := by
  induction p generalizing w with
  | done b =>
    obtain ⟨-, rfl⟩ := Prod.mk.inj ran
    exact before
  | never => simp [Program.run] at ran
  | ask r next ih =>
    have step : ∃ x w₁, watching source r w = (some x, w₁) ∧ Answered answer w₁.happened := by
      have grown {h : Happening} (fits : ∀ q x, h = .asked q x → x = answer q) :
          Answered answer (w.happened ++ [h]) := by
        intro q x member
        rcases List.mem_append.mp member with early | last
        · exact before q x early
        · exact fits q x (List.mem_singleton.mp last).symm
      rcases r with (q | s) | e
      · refine ⟨_, _, rfl, grown ?_⟩
        rintro _ _ ⟨⟩
        exact steady q w.source
      · refine ⟨_, _, rfl, grown ?_⟩
        exact fun q x same => absurd same happening_ne_asked
      · refine ⟨_, _, rfl, grown ?_⟩
        intro q x same
        cases same
    obtain ⟨x, w₁, came, answered⟩ := step
    rw [Program.run_ask came] at ran
    exact ih x answered ran

/-- The files that were written in the course of work on items are those of the items. -/
theorem saved_through {R : α → List Happening → Except Error Nat → Prop} {items : List α}
    {Q : α → Prop} (each : ∀ a t n, Answered answer t → R a t (.ok n) → (.saved s ∈ t ↔ Q a))
    (answered : Answered answer t) (through : Through R items t (.ok n)) :
    .saved s ∈ t ↔ ∃ a ∈ items, Q a := by
  induction items generalizing t n with
  | nil =>
    obtain ⟨rfl, -⟩ := through
    simp
  | cons a rest ih =>
    rcases through with ⟨e, -, failed⟩ | ⟨here, later, n', others, rfl, one, more, sum⟩
    · cases failed
    · cases others with
      | error e => cases sum
      | ok others =>
        rw [List.mem_append, each a here n' answered.left one, ih answered.right more]
        simp

theorem exists_ok_iff {γ : Type} {c : γ} {result : Except Error γ} {P : γ → Prop}
    (same : result = .ok c) : (∃ b, result = .ok b ∧ P b) ↔ P c := by
  subst same
  simp

theorem saved_readsLog {m : Module} {directory container : String} {pod : Pod}
    (answered : Answered answer t) (reads : ReadsLog o m directory pod container t count) :
    .saved s ∈ t ↔ ∃ text, answer (.log m.namespaceName pod.name container) = .ok text ∧
      ∃ copy, LogCopy o text copy ∧ s = ⟨directory, logFile pod.name container, copy⟩ := by
  rcases reads with ⟨text, copy, kept, rfl, -⟩ | ⟨e, rfl, -⟩
  · refine Iff.trans ?_ (exists_ok_iff (answered _ _ List.mem_cons_self).symm).symm
    obtain rfl := logCopy_iff.mp kept
    simp [logCopy_iff]
  · have lost := answered _ _ List.mem_cons_self
    constructor
    · intro member
      simp at member
    · rintro ⟨text, read, -⟩
      cases lost.trans read

theorem saved_readsLogs {m : Module} {directory : String} (answered : Answered answer t)
    (reads : ReadsLogs o m directory t (.ok n)) :
    .saved s ∈ t ↔ ∃ selector ∈ m.selectors, ∃ pods,
      answer (.pods m.namespaceName selector) = .ok pods ∧ ∃ pod ∈ pods,
        ∃ container ∈ pod.containers, ∃ text,
          answer (.log m.namespaceName pod.name container) = .ok text ∧
          ∃ copy, LogCopy o text copy ∧ s = ⟨directory, logFile pod.name container, copy⟩ := by
  refine saved_through (fun selector t n answered selected => ?_) answered reads
  rcases selected with ⟨e, -, failed⟩ | ⟨pods, later, rfl, through⟩
  · cases failed
  · refine Iff.trans ?_ (exists_ok_iff (answered _ _ List.mem_cons_self).symm).symm
    have inner : Answered answer later := fun q x member =>
      answered q x (List.mem_cons_of_mem _ member)
    have each (pod : Pod) (t : List Happening) (n : Nat) (answered : Answered answer t)
        (reads : Through (ReadsLog o m directory pod) pod.containers t (.ok n)) :=
      saved_through (s := s) (fun _ _ _ answered log => saved_readsLog answered log) answered reads
    rw [← saved_through each inner through]
    simp

theorem saved_readsResources {m : Module} {directory : String} (answered : Answered answer t)
    (reads : ReadsResources o m directory t (.ok n)) :
    .saved s ∈ t ↔ ∃ k ∈ m.kinds, ∃ objects,
      answer (.objects m.namespaceName k) = .ok objects ∧ ∃ v ∈ objects,
        ∃ copy, ObjectCopy o k v copy ∧ s = ⟨directory,
          objectFile k ((Cluster.Object.name? copy).getD "unnamed"), Yaml.document copy⟩ := by
  refine saved_through (fun k t n answered listing => ?_) answered reads
  rcases listing with ⟨e, -, failed⟩ | ⟨objects, later, rfl, through⟩
  · cases failed
  · refine Iff.trans ?_ (exists_ok_iff (answered _ _ List.mem_cons_self).symm).symm
    have inner : Answered answer later := fun q x member =>
      answered q x (List.mem_cons_of_mem _ member)
    have each (v : Json) (t : List Happening) (n : Nat) (_ : Answered answer t)
        (reads : ReadsObject o directory k v t (.ok n)) : .saved s ∈ t ↔
          ∃ copy, ObjectCopy o k v copy ∧ s = ⟨directory,
            objectFile k ((Cluster.Object.name? copy).getD "unnamed"), Yaml.document copy⟩ := by
      obtain ⟨copy, kept, rfl, -⟩ := reads
      obtain rfl := objectCopy_iff.mp kept
      simp [objectCopy_iff]
    rw [← saved_through each inner through]
    simp

end

/-! ### Items and their files -/

section

variable {answer : (q : Question) → Source.Answer q} {name text : String} {k : Kind} {v : Json}
  {i j : Item} {s : Saving}

/-- An item that a source gives to a request, and the text that is kept of it: a log that can be
read of a container that a selector leads to, or an object that is listed. -/
inductive Gathered (o : Options) (answer : (q : Question) → Source.Answer q) : Item → String → Prop
  | log {m : Module} {selector : String} {pods : List Pod} {pod : Pod}
      {container text copy : String} : (m, logs) ∈ wanted o → selector ∈ m.selectors →
      answer (.pods m.namespaceName selector) = .ok pods → pod ∈ pods →
      container ∈ pod.containers →
      answer (.log m.namespaceName pod.name container) = .ok text → LogCopy o text copy →
      Gathered o answer (.log m pod.name container) copy
  | object {m : Module} {k : Kind} {objects : List Json} {v copy : Json} {name : String} :
      (m, resources) ∈ wanted o → k ∈ m.kinds → answer (.objects m.namespaceName k) = .ok objects →
      v ∈ objects → Cluster.Object.name? v = some name → ObjectCopy o k v copy →
      Gathered o answer (.object m k name) (Yaml.document copy)

/-- A source that gives names of a cluster to pods, containers and objects, and to an object of a
kind in a namespace a name of its own. -/
structure Orderly (answer : (q : Question) → Source.Answer q) : Prop where
  pods {ns selector : String} {pods : List Pod} {pod : Pod} :
    answer (.pods ns selector) = .ok pods → pod ∈ pods →
      IsName pod.name ∧ ∀ container ∈ pod.containers, IsName container
  objects {ns : String} {k : Kind} {objects : List Json} {v : Json} :
    answer (.objects ns k) = .ok objects → v ∈ objects →
      ∃ name, Cluster.Object.name? v = some name ∧ IsName name
  apart {ns : String} {k : Kind} {objects : List Json} {v w : Json} :
    answer (.objects ns k) = .ok objects → v ∈ objects → w ∈ objects →
      Cluster.Object.name? v = Cluster.Object.name? w → v = w

theorem at?_eq_below? {path : List String} : v.at? path = v.below? (path.map .key) := by
  induction path generalizing v with
  | nil => rfl
  | cons k rest ih =>
    rw [Json.at?, List.map_cons, Json.below?_cons]
    congr 1
    funext u
    exact ih

theorem below?_name_iff : Cluster.Object.name? v = some name ↔
    v.below? [.key "metadata", .key "name"] = some (.str name) := by
  have path : [Json.Turn.key "metadata", .key "name"] = ["metadata", "name"].map .key := rfl
  rw [path, ← at?_eq_below?, Cluster.Object.name?, Json.textAt?, Option.bind_eq_some_iff]
  constructor
  · rintro ⟨u, found, text⟩
    cases u <;> cases text
    exact found
  · exact fun found => ⟨_, found, rfl⟩

theorem below?_name_erased (found : v.below? [.key "metadata", .key "name"] = some (.str name)) :
    (v.updateAt (Fields.erase "managedFields") ["metadata"]).below?
      [.key "metadata", .key "name"] = some (.str name) := by
  have same : v.updateAt (Fields.erase "managedFields") ["metadata"] =
      mapField "metadata" (Json.updateAt (Fields.erase "managedFields") []) v := by
    cases v <;> rfl
  obtain ⟨u, down, held⟩ := Option.bind_eq_some_iff.mp found
  rw [same, Json.below?_cons, turn?_mapField_self, down]
  rw [Json.below?_single] at held
  cases u with
  | obj fields =>
    have other : Fields.find? "name" (Fields.erase "managedFields" fields) =
        Fields.find? "name" fields := Fields.find?_erase_of_ne (by decide)
    exact Json.below?_single.trans (other.trans held)
  | _ => cases held

/-- The name of an object is under no rule of masking. -/
theorem byName_name (kind : String) : ByNameAlone kind v [.key "metadata"] "name" where
  kept := by
    rintro p before (⟨-, part, key, either, rfl⟩ | rfl)
    · obtain ⟨rfl, -⟩ : part = "metadata" ∧ key = "name" := by simpa using before
      exact absurd either (by decide)
    · exact absurd before.length_le (by decide)
  alone same := absurd same (by decide)

/-- An object is kept under its name. -/
theorem ObjectCopy.named {copy : Json} (kept : ObjectCopy o k v copy)
    (named : Cluster.Object.name? v = some name) : Cluster.Object.name? copy = some name := by
  obtain rfl := objectCopy_iff.mp kept
  have erased := below?_name_erased (below?_name_iff.mp named)
  apply below?_name_iff.mpr
  unfold keptObject keptResource
  split
  · exact erased
  · have kept := below?_redacted_field (byName_name k.name) erased
    rwa [not_sensitive_name] at kept

def Item.saving (o : Options) (cluster : String) (i : Item) (text : String) : Saving :=
  ⟨i.directory o cluster, i.file, text⟩

theorem owner_of_wanted {m : Module} {type : String} (member : (m, type) ∈ wanted o) :
    m ∈ modules := by
  obtain ⟨owner, listed, choice⟩ := List.mem_flatMap.mp (List.mem_filter.mp member).1
  rcases List.mem_cons.mp choice with same | same
  · exact (Prod.mk.inj same).1 ▸ listed
  · exact (Prod.mk.inj (List.mem_singleton.mp same)).1 ▸ listed

theorem Gathered.named (orderly : Orderly answer) (gathered : Gathered o answer i text) :
    i.Named := by
  cases gathered with
  | log want selected listing pod container _ _ =>
    obtain ⟨named, each⟩ := orderly.pods listing pod
    exact .log (owner_of_wanted want) named (each _ container)
  | object want _ listing object named _ =>
    obtain ⟨name, named', plain⟩ := orderly.objects listing object
    obtain rfl := Option.some.inj (named.symm.trans named')
    exact .object (owner_of_wanted want) plain

/-- An item has one text. -/
theorem Gathered.unique {text' : String} (orderly : Orderly answer)
    (first : Gathered o answer i text) (second : Gathered o answer i text') : text = text' := by
  generalize same : i = j at second
  cases first with
  | log _ _ _ _ _ read kept =>
    cases second with
    | log _ _ _ _ _ read' kept' =>
      obtain ⟨rfl, pod, rfl⟩ := Item.log.inj same
      rw [pod] at read
      obtain rfl := Except.ok.inj (read.symm.trans read')
      rw [logCopy_iff.mp kept, logCopy_iff.mp kept']
    | object _ _ _ _ _ _ => cases same
  | object _ _ listing object named kept =>
    cases second with
    | log _ _ _ _ _ _ _ => cases same
    | object _ _ listing' object' named' kept' =>
      obtain ⟨rfl, rfl, rfl⟩ := Item.object.inj same
      obtain rfl := Except.ok.inj (listing.symm.trans listing')
      obtain rfl := orderly.apart listing object object' (named.trans named'.symm)
      rw [objectCopy_iff.mp kept, objectCopy_iff.mp kept']

theorem Gathered.wanted (gathered : Gathered o answer i text) : (i.owner, i.type) ∈ wanted o := by
  cases gathered with
  | log want _ _ _ _ _ _ => exact want
  | object want _ _ _ _ _ => exact want

/-- The files of an attempt that succeeds are those of the items of its module and type. -/
theorem Attempt.saved_iff {a : Attempt} {n : Nat} (orderly : Orderly answer)
    (want : (a.owner, a.type) ∈ Gather.wanted o) (sound : a.Sound o cluster)
    (counted : a.count = .ok n) (answered : Answered answer a.inner) : .saved s ∈ a.inner ↔
      ∃ i text, Gathered o answer i text ∧ i.owner = a.owner ∧ i.type = a.type ∧
        s = i.saving o cluster text := by
  rcases sound with ⟨type, reads⟩ | ⟨type, reads⟩
  · rw [counted] at reads
    rw [type] at want ⊢
    rw [saved_readsLogs answered reads]
    constructor
    · rintro ⟨selector, selected, pods, listing, pod, inside, container, has, text, read, copy,
        kept, rfl⟩
      exact ⟨_, _, .log want selected listing inside has read kept, rfl, rfl, rfl⟩
    · rintro ⟨i, text, gathered, owner, same, rfl⟩
      cases gathered with
      | log _ selected listing inside has read kept =>
        subst owner
        exact ⟨_, selected, _, listing, _, inside, _, has, _, read, _, kept, rfl⟩
      | object _ _ _ _ _ _ => exact absurd (show resources = logs from same) (by decide)
  · rw [counted] at reads
    rw [type] at want ⊢
    rw [saved_readsResources answered reads]
    constructor
    · rintro ⟨k, kind, objects, listing, v, inside, copy, kept, rfl⟩
      obtain ⟨name, named, -⟩ := orderly.objects listing inside
      refine ⟨_, _, .object want kind listing inside named kept, rfl, rfl, ?_⟩
      rw [kept.named named]
      rfl
    · rintro ⟨i, text, gathered, owner, same, rfl⟩
      cases gathered with
      | log _ _ _ _ _ _ _ => exact absurd (show logs = resources from same) (by decide)
      | object _ kind listing inside named kept =>
        subst owner
        refine ⟨_, kind, _, listing, _, inside, _, kept, ?_⟩
        rw [kept.named named]
        rfl

/-- The files that are written in the course of a success are those of the gathered items. -/
theorem saved_iff_gathered {attempts : List Attempt} (orderly : Orderly answer)
    (order : attempts.map (fun a => (a.owner, a.type)) = wanted o)
    (sound : ∀ a ∈ attempts, a.Sound o cluster) (clean : ∀ a ∈ attempts, ∃ n, a.count = .ok n)
    (answered : Answered answer (attempts.flatMap Attempt.happened)) :
    .saved s ∈ attempts.flatMap Attempt.happened ↔
      ∃ i text, Gathered o answer i text ∧ s = i.saving o cluster text := by
  have each (a : Attempt) (member : a ∈ attempts) : .saved s ∈ a.happened ↔
      ∃ i text, Gathered o answer i text ∧ i.owner = a.owner ∧ i.type = a.type ∧
        s = i.saving o cluster text := by
    have inner : .saved s ∈ a.happened ↔ .saved s ∈ a.inner := by simp [Attempt.happened]
    have answers : Answered answer a.inner := by
      intro q x asked
      exact answered q x (List.mem_flatMap.mpr ⟨a, member, by simp [Attempt.happened, asked]⟩)
    obtain ⟨n, counted⟩ := clean a member
    rw [inner, Attempt.saved_iff orderly (order ▸ List.mem_map_of_mem member) (sound a member)
      counted answers]
  rw [List.mem_flatMap]
  constructor
  · rintro ⟨a, member, saved⟩
    obtain ⟨i, text, gathered, -, -, same⟩ := (each a member).mp saved
    exact ⟨i, text, gathered, same⟩
  · rintro ⟨i, text, gathered, same⟩
    have want := gathered.wanted
    rw [← order] at want
    obtain ⟨a, member, alike⟩ := List.mem_map.mp want
    obtain ⟨owner, type⟩ := Prod.mk.inj alike
    exact ⟨a, member, (each a member).mpr ⟨i, text, gathered, owner.symm, type.symm, same⟩⟩

/-- A place to which a file of some kind was written has a last one, which was written too. -/
theorem exists_lastSaved? {tree : Tree} {l : Location} (saved : .saved s ∈ t)
    (there : goal tree s = l) :
    ∃ last, lastSaved? tree l t = some last ∧ .saved last ∈ t ∧ goal tree last = l := by
  have member : s ∈ (t.filterMap Happening.saving?).reverse :=
    List.mem_reverse.mpr (List.mem_filterMap.mpr ⟨_, saved, rfl⟩)
  cases found : lastSaved? tree l t with
  | none =>
    have missed := List.find?_eq_none.mp found s member
    simp [there] at missed
  | some last =>
    refine ⟨last, rfl, ?_, by simpa using List.find?_some found⟩
    obtain ⟨h, happened, same⟩ :=
      List.mem_filterMap.mp (List.mem_reverse.mp (List.mem_of_find?_eq_some found))
    cases h with
    | saved r =>
      obtain rfl : r = last := Option.some.inj same
      exact happened
    | _ => cases same

/-- After a success every log that was asked for and could be read, and every object that was
listed, has a file of its own with its own text, and there are no other files. -/
theorem own_files {source : (q : Question) → σ → Source.Answer q × σ} {z : σ} {tree : Tree}
    {w : World σ} (steady : ∀ q s, (source q s).1 = answer q) (orderly : Orderly answer)
    (ran : (collect o cluster).run.run (watching source) ⟨z, tree, []⟩ = (some (.ok ()), w)) :
    (∀ i text, Gathered o answer i text →
      w.files.entry? (i.location tree o cluster) = some (.file (some text))) ∧
    (∀ i text j text', Gathered o answer i text → Gathered o answer j text' →
      i.location tree o cluster = j.location tree o cluster → i = j) ∧
    ∀ s, .saved s ∈ w.happened →
      ∃ i text, Gathered o answer i text ∧ goal tree s = i.location tree o cluster := by
  obtain ⟨t, grown, settled⟩ := goes_of_run ran
  obtain ⟨t', grown', happens⟩ := happens_of_run ran
  rw [List.nil_append] at grown grown'
  subst grown
  subst grown'
  obtain ⟨goes, left⟩ := settled (thorough_collect _ _ happens ⟨(), rfl⟩)
  obtain ⟨attempts, order, sound, all, reported⟩ := goes_collect goes
  have clean : ∀ a ∈ attempts, ∃ n, a.count = .ok n := by
    intro a member
    have none : attempts.filterMap Attempt.failure? = [] := by
      by_contra some
      rw [if_neg some] at reported
      cases reported
    have passed := List.filterMap_eq_nil_iff.mp none a member
    rw [Attempt.failure?] at passed
    cases counted : a.count with
    | ok n => exact ⟨n, rfl⟩
    | error e => simp [counted] at passed
  have none : Answered answer [] := by
    intro q x member
    cases member
  have answered : Answered answer w.happened := answered_of_run steady none ran
  have saved (s : Saving) : .saved s ∈ w.happened ↔
      ∃ i text, Gathered o answer i text ∧ s = i.saving o cluster text := by
    rw [all] at answered ⊢
    exact saved_iff_gathered orderly order sound clean answered
  have place {i : Item} {text : String} (gathered : Gathered o answer i text) :
      goal tree (i.saving o cluster text) = i.location tree o cluster :=
    (Item.location_eq (gathered.named orderly)).symm
  have apart {i j : Item} {text text' : String} (first : Gathered o answer i text)
      (second : Gathered o answer j text')
      (same : i.location tree o cluster = j.location tree o cluster) : i = j :=
    Item.eq_of_location (first.named orderly) (second.named orderly) same
  refine ⟨fun i text gathered => ?_, fun i text j text' => apart, fun s happened => ?_⟩
  · -- Whatever was written there last is a file of the same item.
    obtain ⟨last, found, happened, there⟩ :=
      exists_lastSaved? ((saved _).mpr ⟨i, text, gathered, rfl⟩) (place gathered)
    obtain ⟨j, text', gathered', rfl⟩ := (saved last).mp happened
    obtain rfl := apart gathered' gathered ((place gathered').symm.trans there)
    obtain rfl := gathered'.unique orderly gathered
    exact left.holds _ _ found
  · obtain ⟨i, text, gathered, rfl⟩ := (saved s).mp happened
    exact ⟨i, text, gathered, place gathered⟩

def calmPod : Pod := ⟨"gw-1", ["gateway", "init"]⟩

def calmAnswer : (q : Question) → Source.Answer q
  | .pods _ _ => .ok [calmPod]
  | .log _ _ container =>
    if container = "init" then .error (.cancelled "log") else .ok "token: s3cr3t\n"
  | .objects _ k =>
    .ok (if k = .configMap then [.obj [("metadata", .obj [("name", .str "gw-1")])]] else [])

theorem orderly_calmAnswer : Orderly calmAnswer where
  pods listing member := by
    obtain rfl := Except.ok.inj listing
    obtain rfl := List.mem_singleton.mp member
    exact ⟨by decide, by decide⟩
  objects listing member := by
    obtain rfl := Except.ok.inj listing
    obtain rfl := List.mem_singleton.mp (List.mem_ite_nil_right.mp member).2
    exact ⟨"gw-1", rfl, by decide⟩
  apart listing first second _ := by
    obtain rfl := Except.ok.inj listing
    obtain rfl := List.mem_singleton.mp (List.mem_ite_nil_right.mp first).2
    exact (List.mem_singleton.mp (List.mem_ite_nil_right.mp second).2).symm

def calmTree : Tree := ⟨[(["work"], .directory)], ["work"]⟩

def calmRun : Option (Except Error Unit) × World Unit :=
  (collect ⟨allTypes, [connectivity], "out", false⟩ "east").run.run
    (watching fun q z => (calmAnswer q, z)) ⟨(), calmTree, []⟩

/-- The log that is read and the configuration of that name are in their files. -/
theorem own_files_calmRun :
    let o : Options := ⟨allTypes, [connectivity], "out", false⟩
    let m : Module := modules.head (by decide)
    calmRun.1 = some (.ok ()) ∧ Orderly calmAnswer ∧
      Gathered o calmAnswer (.log m calmPod.name "gateway") "token: REDACTED\n" ∧
      Gathered o calmAnswer (.object m .configMap "gw-1") "metadata:\n  name: gw-1\n" ∧
      calmRun.2.files.entry? ["work", "out", "east", "connectivity", "gw-1_gateway.log"] =
        some (.file (some "token: REDACTED\n")) ∧
      calmRun.2.files.entry? ["work", "out", "east", "connectivity", "configmap_gw-1.yaml"] =
        some (.file (some "metadata:\n  name: gw-1\n")) := by
  intro o m
  have success : calmRun.1 = some (.ok ()) := by decide +kernel
  have log : Gathered o calmAnswer (.log m calmPod.name "gateway") "token: REDACTED\n" := by
    have want : (m, logs) ∈ wanted o := by decide
    have selected : "app=submariner-gateway" ∈ m.selectors := by decide
    exact .log want selected rfl List.mem_cons_self List.mem_cons_self rfl
      (logCopy_iff.mpr (by decide +kernel))
  have object : Gathered o calmAnswer (.object m .configMap "gw-1")
      "metadata:\n  name: gw-1\n" := by
    have written : "metadata:\n  name: gw-1\n" = Yaml.document
        (keptObject o .configMap (.obj [("metadata", .obj [("name", .str "gw-1")])])) := by
      decide +kernel
    rw [written]
    exact .object (by decide) (by decide) rfl List.mem_cons_self rfl (objectCopy_iff.mpr rfl)
  obtain ⟨own, -, -⟩ := own_files (fun _ _ => rfl) orderly_calmAnswer
    (show calmRun = (some (.ok ()), calmRun.2) from Prod.ext success rfl)
  exact ⟨success, orderly_calmAnswer, log, object, own _ _ log, own _ _ object⟩

end

end MultiCluster.Gather
