import MultiCluster.Proofs.Copies
import MultiCluster.Proofs.Transcript

/-! Gathering from one cluster, part by part. What happens in a part is spelled out as a relation
between its happenings and its result, which speaks of no other part; it is what the part does, so
the answers that a part gets settle everything that it asks, writes and reports. -/
namespace MultiCluster.Gather

open Cluster (Kind)

variable {α : Type} {o : Options} {t : List Happening} {count : Except Error Nat}
  {s : Files.Saving} {cluster : String}

section

variable {m : Module} {k : Kind} {pod : Pod} {v : Json} {e : Event}
  {container directory selector : String}

/-! ### What happens in a part -/

/-- Work on items in order up to the first failure; the counts are added up. -/
def Through (R : α → List Happening → Except Error Nat → Prop) :
    List α → List Happening → Except Error Nat → Prop
  | [], t, count => t = [] ∧ count = .ok 0
  | a :: rest, t, count => (∃ e, R a t (.error e) ∧ count = .error e) ∨
      ∃ here later n others, t = here ++ later ∧ R a here (.ok n) ∧
        Through R rest later others ∧ count = others.map (n + ·)

def ReadsLog (o : Options) (m : Module) (directory : String) (pod : Pod) (container : String)
    (t : List Happening) (count : Except Error Nat) : Prop :=
  (∃ text copy, LogCopy o text copy ∧
      t = [.asked (.log m.namespaceName pod.name container) (.ok text),
        .saved ⟨directory, logFile pod.name container, copy⟩] ∧ count = .ok 1) ∨
  ∃ e, t = [.asked (.log m.namespaceName pod.name container) (.error e), .told (.warning
      ("No log for " ++ pod.name ++ "/" ++ container ++ ": " ++ e.message))] ∧ count = .ok 0

def ReadsSelected (o : Options) (m : Module) (directory selector : String)
    (t : List Happening) (count : Except Error Nat) : Prop :=
  (∃ e, t = [.asked (.pods m.namespaceName selector) (.error e)] ∧ count = .error e) ∨
  ∃ pods later, t = .asked (.pods m.namespaceName selector) (.ok pods) :: later ∧
    Through (fun pod => Through (ReadsLog o m directory pod) pod.containers) pods later count

def ReadsLogs (o : Options) (m : Module) (directory : String) :
    List Happening → Except Error Nat → Prop :=
  Through (ReadsSelected o m directory) m.selectors

def ReadsObject (o : Options) (directory : String) (k : Kind) (v : Json) (t : List Happening)
    (count : Except Error Nat) : Prop :=
  ∃ copy, ObjectCopy o k v copy ∧
    t = [.saved ⟨directory, objectFile k ((Cluster.Object.name? copy).getD "unnamed"),
      Yaml.document copy⟩] ∧ count = .ok 1

def ReadsKind (o : Options) (m : Module) (directory : String) (k : Kind)
    (t : List Happening) (count : Except Error Nat) : Prop :=
  (∃ e, t = [.asked (.objects m.namespaceName k) (.error e)] ∧ count = .error e) ∨
  ∃ objects later, t = .asked (.objects m.namespaceName k) (.ok objects) :: later ∧
    Through (ReadsObject o directory k) objects later count

def ReadsResources (o : Options) (m : Module) (directory : String) :
    List Happening → Except Error Nat → Prop :=
  Through (ReadsKind o m directory) m.kinds

/-! ### The work does just that -/

theorem goes_tell {u : Unit} : Goes (tell e) t u ↔ t = [.told e] := by
  constructor
  · rintro ⟨_, rest, rfl, -, rfl, -⟩
    rfl
  · rintro rfl
    exact ⟨(), [], rfl, nofun, rfl, rfl⟩

theorem goes_save {result : Except Error Unit} :
    Goes (save s).run t result ↔ t = [.saved s] ∧ result = .ok () := by
  constructor
  · rintro ⟨written, rest, rfl, kept, rfl, rfl⟩
    change Except Files.Problem Unit at written
    cases written with
    | ok _ => exact ⟨rfl, rfl⟩
    | error p => exact absurd rfl (kept s p)
  · rintro ⟨rfl, rfl⟩
    exact ⟨(.ok () : Except Files.Problem Unit), [], rfl, nofun, rfl, rfl⟩

theorem goes_ask {q : Question} {f : Source.Answer q → Program Requests α} {a : α} :
    Goes ((ask q).bind f) t a ↔ ∃ x rest, t = .asked q x :: rest ∧ Goes (f x) rest a := by
  constructor
  · rintro ⟨x, rest, rfl, -, goes⟩
    exact ⟨x, rest, rfl, goes⟩
  · rintro ⟨x, rest, rfl, goes⟩
    exact ⟨x, rest, rfl, nofun, goes⟩

theorem goes_pure {ε : Type} {a : α} {result : Except ε α} :
    Goes (pure a : Action Requests ε α).run t result ↔ t = [] ∧ result = .ok a :=
  Iff.rfl

/-- Writing a file and counting it. -/
theorem goes_saveOne : Goes (do save s; pure 1 : Gathering Nat).run t count ↔
    t = [.saved s] ∧ count = .ok 1 := by
  rw [goes_action_bind]
  constructor
  · rintro (⟨e, failed, -⟩ | ⟨_, _, _, rfl, wrote, rest⟩)
    · exact absurd (goes_save.mp failed).2 nofun
    · obtain ⟨rfl, -⟩ := goes_save.mp wrote
      obtain ⟨rfl, rfl⟩ := goes_pure.mp rest
      exact ⟨rfl, rfl⟩
  · rintro ⟨rfl, rfl⟩
    exact .inr ⟨[.saved s], [], (), rfl, goes_save.mpr ⟨rfl, rfl⟩, goes_pure.mpr ⟨rfl, rfl⟩⟩

theorem goes_total {work : α → Gathering Nat} {items : List α} :
    Goes (total work items).run t count ↔ Through (fun a => Goes (work a).run) items t count := by
  induction items generalizing t count with
  | nil => exact goes_pure
  | cons a rest ih =>
    have added {n : Nat} {t : List Happening} : Goes (do
        let others ← total work rest
        pure (n + others) : Gathering Nat).run t count ↔
        ∃ others, Through (fun a => Goes (work a).run) rest t others ∧
          count = others.map (n + ·) := by
      rw [goes_action_bind]
      constructor
      · rintro (⟨e, failed, rfl⟩ | ⟨t₁, t₂, others, rfl, counted, last⟩)
        · exact ⟨.error e, ih.mp failed, rfl⟩
        · obtain ⟨rfl, rfl⟩ := goes_pure.mp last
          exact ⟨.ok others, by rw [List.append_nil]; exact ih.mp counted, rfl⟩
      · rintro ⟨others, counted, rfl⟩
        cases others with
        | error e => exact .inl ⟨e, ih.mpr counted, rfl⟩
        | ok others =>
          exact .inr ⟨t, [], others, (List.append_nil t).symm, ih.mpr counted, rfl, rfl⟩
    rw [total, goes_action_bind]
    refine or_congr Iff.rfl ?_
    constructor
    · rintro ⟨here, later, n, rfl, first, rest⟩
      obtain ⟨others, counted, rfl⟩ := added.mp rest
      exact ⟨here, later, n, others, rfl, first, counted, rfl⟩
    · rintro ⟨here, later, n, others, rfl, first, counted, rfl⟩
      exact ⟨here, later, n, rfl, first, added.mpr ⟨others, counted, rfl⟩⟩

theorem through_congr {R S : α → List Happening → Except Error Nat → Prop} {items : List α}
    (same : ∀ a t count, R a t count ↔ S a t count) : Through R items t count ↔
      Through S items t count := by
  have equal : R = S := by
    funext a t count
    exact propext (same a t count)
  rw [equal]

theorem goes_gatherLog : Goes (gatherLog o m directory pod container).run t count ↔
    ReadsLog o m directory pod container t count := by
  refine goes_ask.trans ?_
  constructor
  · rintro ⟨answer, rest, rfl, goes⟩
    change Except Error String at answer
    cases answer with
    | ok text =>
      obtain ⟨rfl, rfl⟩ := goes_saveOne.mp goes
      exact .inl ⟨text, _, logCopy_iff.mpr rfl, rfl, rfl⟩
    | error e =>
      obtain ⟨_, _, _, rfl, warned, rfl, rfl⟩ := goes_bind.mp goes
      obtain rfl := goes_tell.mp warned
      exact .inr ⟨e, rfl, rfl⟩
  · rintro (⟨text, copy, kept, rfl, rfl⟩ | ⟨e, rfl, rfl⟩)
    · obtain rfl := logCopy_iff.mp kept
      exact ⟨(.ok text : Except Error String), _, rfl, goes_saveOne.mpr ⟨rfl, rfl⟩⟩
    · exact ⟨(.error e : Except Error String), _, rfl,
        goes_bind.mpr ⟨_, [], (), rfl, goes_tell.mpr rfl, rfl, rfl⟩⟩

/-- A question, and work on the items of its answer; what cannot be answered is a failure. -/
theorem goes_askThen {β : Type} {p : Program Requests (Except Error (List β))}
    (happens : Except Error (List β) → Happening) {work : β → Gathering Nat}
    (asks : ∀ t a, Goes p t a ↔ t = [happens a]) :
    Goes ((ExceptT.mk p : Gathering (List β)) >>= total work).run t count ↔
      (∃ e, t = [happens (.error e)] ∧ count = .error e) ∨
      ∃ items later, t = happens (.ok items) :: later ∧
        Through (fun b => Goes (work b).run) items later count := by
  rw [goes_action_bind]
  constructor
  · rintro (⟨e, failed, rfl⟩ | ⟨t₁, t₂, items, rfl, answered, worked⟩)
    · exact .inl ⟨e, (asks t _).mp failed, rfl⟩
    · obtain rfl := (asks t₁ _).mp answered
      exact .inr ⟨items, t₂, rfl, goes_total.mp worked⟩
  · rintro (⟨e, rfl, rfl⟩ | ⟨items, later, rfl, worked⟩)
    · exact .inl ⟨e, (asks _ _).mpr rfl, rfl⟩
    · exact .inr ⟨_, later, items, rfl, (asks _ _).mpr rfl, goes_total.mpr worked⟩

theorem goes_question {q : Question} {a : Source.Answer q} :
    Goes (ask q) t a ↔ t = [.asked q a] := by
  constructor
  · rintro ⟨x, rest, rfl, -, rfl, rfl⟩
    rfl
  · rintro rfl
    exact ⟨a, [], rfl, nofun, rfl, rfl⟩

theorem goes_gatherSelected : Goes (gatherSelected o m directory selector).run t count ↔
    ReadsSelected o m directory selector t count := by
  refine (goes_askThen (fun a => .asked (.pods m.namespaceName selector) a)
    fun _ _ => goes_question).trans ?_
  have each (pods : List Pod) (later : List Happening) : Through
      (fun pod => Goes (total (gatherLog o m directory pod) pod.containers).run) pods later count ↔
      Through (fun pod => Through (ReadsLog o m directory pod) pod.containers) pods later count :=
    through_congr fun pod t count => goes_total.trans (through_congr fun _ _ _ => goes_gatherLog)
  simp only [each]
  rfl

theorem goes_gatherLogs : Goes (gatherLogs o m directory).run t count ↔
    ReadsLogs o m directory t count :=
  goes_total.trans (through_congr fun _ _ _ => goes_gatherSelected)

theorem goes_gatherObject : Goes (gatherObject o directory k v).run t count ↔
    ReadsObject o directory k v t count := by
  refine goes_saveOne.trans ?_
  simp only [ReadsObject, objectCopy_iff, exists_eq_left]

theorem goes_gatherKind : Goes (gatherKind o m directory k).run t count ↔
    ReadsKind o m directory k t count := by
  refine (goes_askThen (fun a => .asked (.objects m.namespaceName k) a)
    fun _ _ => goes_question).trans ?_
  have each (objects : List Json) (later : List Happening) :
      Through (fun v => Goes (gatherObject o directory k v).run) objects later count ↔
      Through (ReadsObject o directory k) objects later count :=
    through_congr fun _ _ _ => goes_gatherObject
  simp only [each]
  rfl

theorem goes_gatherResources : Goes (gatherResources o m directory).run t count ↔
    ReadsResources o m directory t count :=
  goes_total.trans (through_congr fun _ _ _ => goes_gatherKind)

/-! ### Files hold what was read -/

def Faithful (o : Options) (happened : List Happening) (s : Files.Saving) : Prop :=
  (∃ ns pod container text, .asked (.log ns pod container) (.ok text) ∈ happened ∧
    s.name = logFile pod container ∧ LogCopy o text s.text) ∨
  ∃ ns k objects v copy, .asked (.objects ns k) (.ok objects) ∈ happened ∧ v ∈ objects ∧
    ObjectCopy o k v copy ∧ s.name = objectFile k ((Cluster.Object.name? copy).getD "unnamed") ∧
    s.text = Yaml.document copy

def AllFaithful (o : Options) (happened : List Happening) : Prop :=
  ∀ s, .saved s ∈ happened → Faithful o happened s

theorem Faithful.mono {t' : List Happening} (faithful : Faithful o t s) (more : t ⊆ t') :
    Faithful o t' s := by
  rcases faithful with ⟨ns, pod, container, text, asked, name, kept⟩ |
    ⟨ns, k, objects, v, copy, asked, member, kept⟩
  · exact .inl ⟨ns, pod, container, text, more asked, name, kept⟩
  · exact .inr ⟨ns, k, objects, v, copy, more asked, member, kept⟩

theorem AllFaithful.append {t' : List Happening} (first : AllFaithful o t)
    (second : AllFaithful o t') : AllFaithful o (t ++ t') := by
  intro s member
  rcases List.mem_append.mp member with here | later
  · exact (first s here).mono (List.subset_append_left t t')
  · exact (second s later).mono (List.subset_append_right t t')

theorem faithful_through {R : α → List Happening → Except Error Nat → Prop} {items : List α}
    (each : ∀ a ∈ items, ∀ t count, R a t count → AllFaithful o t)
    (through : Through R items t count) : AllFaithful o t := by
  induction items generalizing t count with
  | nil =>
    obtain ⟨rfl, -⟩ := through
    exact nofun
  | cons a rest ih =>
    obtain ⟨first, others⟩ := List.forall_mem_cons.mp each
    rcases through with ⟨e, failed, -⟩ | ⟨here, later, n, counts, rfl, one, more, -⟩
    · exact first t _ failed
    · exact (first here _ one).append (ih others more)

theorem faithful_readsLog (reads : ReadsLog o m directory pod container t count) :
    AllFaithful o t := by
  rcases reads with ⟨text, copy, kept, rfl, -⟩ | ⟨e, rfl, -⟩
  · intro s member
    obtain rfl : s = _ := by simpa using member
    exact .inl ⟨_, _, _, text, List.mem_cons_self, rfl, kept⟩
  · intro s member
    simp at member

theorem faithful_readsSelected (reads : ReadsSelected o m directory selector t count) :
    AllFaithful o t := by
  rcases reads with ⟨e, rfl, -⟩ | ⟨pods, later, rfl, through⟩
  · intro s member
    simp at member
  · have inner := faithful_through (fun pod _ t count work =>
      faithful_through (fun _ _ _ _ => faithful_readsLog) work) through
    exact AllFaithful.append (t := [_]) (fun s member => by simp at member) inner

theorem faithful_readsKind (reads : ReadsKind o m directory k t count) : AllFaithful o t := by
  rcases reads with ⟨e, rfl, -⟩ | ⟨objects, later, rfl, through⟩
  · intro s member
    simp at member
  · -- The objects were read by the question before them, so the whole list is looked at.
    have listed : ∀ s, .saved s ∈ later → ∃ v ∈ objects, ∃ copy, ObjectCopy o k v copy ∧
        s.name = objectFile k ((Cluster.Object.name? copy).getD "unnamed") ∧
        s.text = Yaml.document copy := by
      clear * - through
      induction objects generalizing later count with
      | nil =>
        obtain ⟨rfl, -⟩ := through
        exact nofun
      | cons v rest ih =>
        rcases through with ⟨e, ⟨-, -, -, failed⟩, -⟩ |
          ⟨here, more, n, counts, rfl, ⟨copy, kept, rfl, -⟩, others, -⟩
        · cases failed
        · intro s member
          rcases List.mem_append.mp member with first | last
          · obtain rfl : s = _ := by simpa using first
            exact ⟨v, List.mem_cons_self, copy, kept, rfl, rfl⟩
          · obtain ⟨u, inside, holds⟩ := ih more others s last
            exact ⟨u, List.mem_cons_of_mem _ inside, holds⟩
    intro s member
    rcases List.mem_cons.mp member with ⟨⟨⟩⟩ | saved
    obtain ⟨v, inside, copy, kept⟩ := listed s saved
    exact .inr ⟨_, k, objects, v, copy, List.mem_cons_self, inside, kept⟩

end

/-! ### Attempts -/

/-- What happened in a part, between the event that starts it and the one that ends it. -/
structure Attempt where
  owner : Module
  type : String
  inner : List Happening
  count : Except Error Nat

namespace Attempt

def title (a : Attempt) : String := a.owner.name ++ " " ++ a.type

def directory (o : Options) (cluster : String) (a : Attempt) : String :=
  Files.join (clusterDirectory o cluster) a.owner.name

def Sound (o : Options) (cluster : String) (a : Attempt) : Prop :=
  (a.type = logs ∧ ReadsLogs o a.owner (a.directory o cluster) a.inner a.count) ∨
  (a.type = resources ∧ ReadsResources o a.owner (a.directory o cluster) a.inner a.count)

def unit (a : Attempt) : String := if a.type = logs then "log(s)" else "resource(s)"

def conclusion (a : Attempt) : Event :=
  match a.count with
  | .ok count =>
    .success ("Gathered " ++ Text.decimal count ++ " " ++ a.owner.name ++ " " ++ a.unit)
  | .error e => .failure ("Failed to gather " ++ a.title ++ ": " ++ e.message)

def happened (a : Attempt) : List Happening :=
  .told (.start ("Gathering " ++ a.title)) :: a.inner ++ [.told a.conclusion]

def failure? (a : Attempt) : Option String :=
  match a.count with
  | .ok _ => none
  | .error e => some (a.title ++ ": " ++ e.message)

/-- An attempt is settled by the answers that it gets. -/
theorem Sound.determined {a b : Attempt} (first : a.Sound o cluster) (second : b.Sound o cluster)
    (owner : a.owner = b.owner) (type : a.type = b.type)
    (same : readings a.inner = readings b.inner) : a = b := by
  have settled : a.inner = b.inner ∧ a.count = b.count := by
    obtain ⟨m, name, inner, count⟩ := a
    obtain ⟨m', name', inner', count'⟩ := b
    obtain rfl : m = m' := owner
    obtain rfl : name = name' := type
    rcases first with ⟨isLogs, first⟩ | ⟨isResources, first⟩
    · rcases second with ⟨-, second⟩ | ⟨isResources, -⟩
      · exact goes_determined (goes_gatherLogs.mpr first) (goes_gatherLogs.mpr second) same
      · exact absurd (isLogs.symm.trans isResources) (by decide)
    · rcases second with ⟨isLogs, -⟩ | ⟨-, second⟩
      · exact absurd (isLogs.symm.trans isResources) (by decide)
      · exact goes_determined (goes_gatherResources.mpr first) (goes_gatherResources.mpr second)
          same
  obtain ⟨m, name, inner, count⟩ := a
  obtain ⟨m', name', inner', count'⟩ := b
  obtain ⟨rfl, rfl⟩ := settled
  obtain rfl : m = m' := owner
  obtain rfl : name = name' := type
  rfl

theorem Sound.faithful {a : Attempt} (sound : a.Sound o cluster) : AllFaithful o a.happened := by
  have inner : AllFaithful o a.inner := by
    rcases sound with ⟨-, reads⟩ | ⟨-, reads⟩
    · exact faithful_through (fun _ _ _ _ => faithful_readsSelected) reads
    · exact faithful_through (fun _ _ _ _ => faithful_readsKind) reads
  refine AllFaithful.append (t := .told _ :: a.inner) ?_ fun s member => by simp at member
  exact AllFaithful.append (t := [_]) (fun s member => by simp at member) inner

end Attempt

theorem faithful_flatMap {attempts : List Attempt}
    (each : ∀ a ∈ attempts, AllFaithful o a.happened) :
    AllFaithful o (attempts.flatMap Attempt.happened) := by
  induction attempts with
  | nil => exact nofun
  | cons a rest ih =>
    obtain ⟨first, others⟩ := List.forall_mem_cons.mp each
    exact first.append (ih others)

/-! ### All parts together -/

def wanted (o : Options) : List (Module × String) :=
  (modules.flatMap fun m => [(m, logs), (m, resources)]).filter fun (m, type) =>
    o.wantsModule m.name && o.wantsType type && (type != logs || !m.selectors.isEmpty)

example : (wanted ⟨allTypes, allModules, "out", false⟩).map (fun p => (p.1.name, p.2)) =
    [(connectivity, logs), (connectivity, resources), (serviceDiscovery, logs),
      (serviceDiscovery, resources), (brokerModule, resources), (operatorModule, logs),
      (operatorModule, resources)] := by decide

def partOf (o : Options) (cluster : String) : Module × String → Part
  | (m, type) =>
    let directory := Files.join (clusterDirectory o cluster) m.name
    if type = logs then ⟨m.name, logs, "log(s)", gatherLogs o m directory⟩
    else ⟨m.name, resources, "resource(s)", gatherResources o m directory⟩

theorem parts_eq : parts o cluster = (wanted o).map (partOf o cluster) := by
  rw [parts, wanted]
  induction modules with
  | nil => rfl
  | cons m rest ih =>
    have one : (if o.wantsModule m.name then Module.parts o cluster m else []) =
        ([(m, logs), (m, resources)].filter fun (m, type) => o.wantsModule m.name &&
          o.wantsType type && (type != logs || !m.selectors.isEmpty)).map (partOf o cluster) := by
      have apart : resources ≠ logs := by decide
      simp only [Module.parts, List.filter_cons, List.filter_nil]
      cases o.wantsModule m.name <;> cases o.wantsType logs <;> cases o.wantsType resources <;>
        cases m.selectors.isEmpty <;> simp [partOf, apart]
    rw [List.filter_cons, List.flatMap_cons, List.filter_append, List.map_append, ← ih, ← one]
    cases o.wantsModule m.name <;> rfl

theorem type_of_wanted {m : Module} {type : String} (member : (m, type) ∈ wanted o) :
    type = logs ∨ type = resources := by
  obtain ⟨_, -, choice⟩ := List.mem_flatMap.mp (List.mem_filter.mp member).1
  rcases List.mem_cons.mp choice with same | same
  · exact .inl (Prod.mk.inj same).2
  · exact .inr (Prod.mk.inj (List.mem_singleton.mp same)).2

/-- What happens in a part, and how it is reported. -/
theorem goes_gather {p : Part} {failure : Option String} (goes : Goes p.gather t failure) :
    ∃ inner count, Goes p.work.run inner count ∧
      t = .told (.start ("Gathering " ++ p.title)) :: inner ++ [.told (match count with
        | .ok count => .success
          ("Gathered " ++ Text.decimal count ++ " " ++ p.moduleName ++ " " ++ p.unit)
        | .error e => .failure ("Failed to gather " ++ p.title ++ ": " ++ e.message))] ∧
      failure = (match count with
        | .ok _ => none
        | .error e => some (p.title ++ ": " ++ e.message)) := by
  obtain ⟨_, _, _, rfl, began, working⟩ := goes_bind.mp goes
  obtain rfl := goes_tell.mp began
  obtain ⟨inner, _, count, rfl, worked, ending⟩ := goes_bind.mp working
  refine ⟨inner, count, worked, ?_⟩
  cases count with
  | ok n =>
    obtain ⟨_, _, _, rfl, ended, rfl, rfl⟩ := goes_bind.mp ending
    obtain rfl := goes_tell.mp ended
    exact ⟨rfl, rfl⟩
  | error e =>
    obtain ⟨_, _, _, rfl, ended, rfl, rfl⟩ := goes_bind.mp ending
    obtain rfl := goes_tell.mp ended
    exact ⟨rfl, rfl⟩

theorem attempt_of_goes {m : Module} {type : String} {failure : Option String}
    (known : type = logs ∨ type = resources)
    (goes : Goes (partOf o cluster (m, type)).gather t failure) :
    ∃ a : Attempt, (a.owner, a.type) = (m, type) ∧ a.Sound o cluster ∧ t = a.happened ∧
      failure = a.failure? := by
  obtain ⟨inner, count, worked, happened, failed⟩ := goes_gather goes
  refine ⟨⟨m, type, inner, count⟩, rfl, ?_, ?_, ?_⟩
  all_goals rcases known with rfl | rfl
  · exact .inl ⟨rfl, goes_gatherLogs.mp worked⟩
  · exact .inr ⟨rfl, goes_gatherResources.mp worked⟩
  all_goals cases count <;> assumption

theorem attempts_of_goes {wants : List (Module × String)} {failures : List String}
    (known : ∀ p ∈ wants, p.2 = logs ∨ p.2 = resources)
    (goes : Goes (gatherParts (wants.map (partOf o cluster))) t failures) :
    ∃ attempts : List Attempt, attempts.map (fun a => (a.owner, a.type)) = wants ∧
      (∀ a ∈ attempts, a.Sound o cluster) ∧ t = attempts.flatMap Attempt.happened ∧
      failures = attempts.filterMap Attempt.failure? := by
  induction wants generalizing t failures with
  | nil =>
    obtain ⟨rfl, rfl⟩ := goes
    exact ⟨[], rfl, nofun, rfl, rfl⟩
  | cons p rest ih =>
    obtain ⟨first, others⟩ := List.forall_mem_cons.mp known
    obtain ⟨here, _, failure, rfl, one, rest⟩ := goes_bind.mp goes
    obtain ⟨later, _, more, rfl, all, rfl, rfl⟩ := goes_bind.mp rest
    obtain ⟨a, named, sound, rfl, rfl⟩ := attempt_of_goes first one
    obtain ⟨attempts, order, sounds, rfl, rfl⟩ := ih others all
    refine ⟨a :: attempts, by rw [List.map_cons, order, named],
      List.forall_mem_cons.mpr ⟨sound, sounds⟩, by rw [List.append_nil, List.flatMap_cons], ?_⟩
    cases failed : a.failure? with
    | none => exact (List.filterMap_cons_none failed).symm
    | some f => exact (List.filterMap_cons_some failed).symm

theorem goes_collect {result : Except Error Unit} (goes : Goes (collect o cluster).run t result) :
    ∃ attempts : List Attempt, attempts.map (fun a => (a.owner, a.type)) = wanted o ∧
      (∀ a ∈ attempts, a.Sound o cluster) ∧ t = attempts.flatMap Attempt.happened ∧
      result = (if attempts.filterMap Attempt.failure? = [] then .ok ()
        else .error (.internal (Text.join "; " (attempts.filterMap Attempt.failure?)) "gather")) := by
  obtain ⟨_, _, failures, rfl, gathered, rfl, rfl⟩ := goes_bind.mp goes
  rw [parts_eq] at gathered
  obtain ⟨attempts, order, sound, rfl, rfl⟩ :=
    attempts_of_goes (fun _ member => type_of_wanted member) gathered
  refine ⟨attempts, order, sound, List.append_nil _, ?_⟩
  simp only [List.isEmpty_iff]

/-! ### Gathering comes to an end -/

section

variable {m : Module} {directory : String}

theorem ends_save : Ends (save s).run := by
  intro written
  trivial

theorem ends_total {work : α → Gathering Nat} {items : List α} (each : ∀ a, Ends (work a).run) :
    Ends (total work items).run := by
  induction items with
  | nil => trivial
  | cons a rest ih =>
    exact ends_action_bind (each a) fun n => ends_action_bind ih fun others => trivial

theorem ends_gatherLogs : Ends (gatherLogs o m directory).run := by
  refine ends_total fun selector => ends_action_bind (fun _ => trivial) fun pods =>
    ends_total fun pod => ends_total fun container => ?_
  intro (answer : Except Error String)
  cases answer with
  | ok text => exact ends_action_bind ends_save fun _ => trivial
  | error e => exact fun _ => trivial

theorem ends_gatherResources : Ends (gatherResources o m directory).run :=
  ends_total fun _ => ends_action_bind (fun _ => trivial) fun _ =>
    ends_total fun _ => ends_action_bind ends_save fun _ => trivial

theorem ends_gather {p : Module × String} : Ends (partOf o cluster p).gather := by
  have work : Ends (partOf o cluster p).work.run := by
    rw [partOf]
    split
    · exact ends_gatherLogs
    · exact ends_gatherResources
  refine fun _ => work.bind fun count => ?_
  cases count with
  | ok n => exact fun _ => trivial
  | error e => exact fun _ => trivial

theorem ends_gatherParts {wants : List (Module × String)} :
    Ends (gatherParts (wants.map (partOf o cluster))) := by
  induction wants with
  | nil => trivial
  | cons p rest ih => exact ends_gather.bind fun _ => ih.bind fun _ => trivial

theorem ends_collect : Ends (collect o cluster).run := by
  refine Ends.bind ?_ fun _ => trivial
  rw [parts_eq]
  exact ends_gatherParts

end

/-- Gathering from a cluster ends with a result. If files can be written, every wanted part is
attempted in order, each settled by its own answers alone; what happens is what happens in the
attempts, each file that is left is the redacted copy of what was read, and the result names all
failed parts in order, and is a success if there are none. -/
theorem collection_accounted {σ : Type} (source : (q : Question) → σ → Source.Answer q × σ)
    (s : σ) (tree : Files.Tree) (o : Options) (cluster : String) : ∃ result w,
    (collect o cluster).run.run (watching source) ⟨s, tree, []⟩ = (some result, w) ∧
    (Written w.happened → ∃ attempts : List Attempt,
      attempts.map (fun a => (a.owner, a.type)) = wanted o ∧
      (∀ a ∈ attempts, a.Sound o cluster ∧ ∀ b : Attempt, b.Sound o cluster → a.owner = b.owner →
        a.type = b.type → readings a.inner = readings b.inner → a = b) ∧
      w.happened = attempts.flatMap Attempt.happened ∧
      AllFaithful o w.happened ∧ Left w.happened tree w.files ∧
      result = (if attempts.filterMap Attempt.failure? = [] then .ok ()
        else .error (.internal (Text.join "; " (attempts.filterMap Attempt.failure?)) "gather"))) := by
  obtain ⟨result, w, ran⟩ := ends_collect.run source ⟨s, tree, []⟩
  refine ⟨result, w, ran, fun written => ?_⟩
  obtain ⟨t, happened, settled⟩ := goes_of_run ran
  obtain rfl : w.happened = t := happened.trans (List.nil_append t)
  obtain ⟨goes, left⟩ := settled written
  obtain ⟨attempts, order, sound, all, reported⟩ := goes_collect goes
  refine ⟨attempts, order, fun a member => ⟨sound a member, fun b other =>
    (sound a member).determined other⟩, all, ?_, left, reported⟩
  rw [all]
  exact faithful_flatMap fun a member => (sound a member).faithful

def managedDeployment : Json := .obj [
  ("metadata", .obj [("managedFields", .arr [.str "kubectl"]), ("name", .str "op")]),
  ("spec", .obj [("env", .arr [.obj [("name", .str "PSK"), ("value", .str "c2Vj")]]),
    ("token", .str "eyJh")])]

def wornSource : (q : Question) → Unit → Source.Answer q × Unit
  | .pods _ _, _ => (.ok [⟨"op-1", ["manager", "proxy"]⟩], ())
  | .log _ _ container, _ =>
    (if container = "manager" then .ok "token: s3cr3t\n" else .error (.cancelled "log"), ())
  | .objects _ k, _ =>
    (if k = .deployment then .ok [managedDeployment] else .error (.cancelled "list"), ())

def wornRun : Option (Except Error Unit) × World Unit :=
  (collect ⟨allTypes, [brokerModule, operatorModule], "out", false⟩ "east").run.run
    (watching wornSource) ⟨(), ⟨[(["work"], .directory)], ["work"]⟩, []⟩

/-- The log that is read and the deployment are kept without their secrets, and the deployment
without its managers; the lost log is no failure, and the other objects are one. -/
theorem collection_accounted_wornSource : ∃ attempts : List Attempt,
    wornRun.1 = some (.error (.internal "broker resources: cancelled: list" "gather")) ∧
      Written wornRun.2.happened ∧
      wornRun.2.files.entry? ["work", "out", "east", "operator", "op-1_manager.log"] =
        some (.file (some "token: REDACTED\n")) ∧
      wornRun.2.files.entry? ["work", "out", "east", "operator", "deployment_op.yaml"] =
        some (.file (some "metadata:
  name: op
spec:
  env:
  - name: PSK
    value: REDACTED
  token: REDACTED
")) ∧
      attempts.map (fun a => (a.owner.name, a.type)) =
        [(brokerModule, resources), (operatorModule, logs), (operatorModule, resources)] ∧
      wornRun.2.happened = attempts.flatMap Attempt.happened ∧
      AllFaithful ⟨allTypes, [brokerModule, operatorModule], "out", false⟩ wornRun.2.happened ∧
      attempts.filterMap Attempt.failure? ≠ [] := by
  have failed : wornRun.1 =
      some (.error (.internal "broker resources: cancelled: list" "gather")) := by decide +kernel
  have written : Written wornRun.2.happened := by decide +kernel
  obtain ⟨result, w, ran, accounted⟩ := collection_accounted wornSource ()
    ⟨[(["work"], .directory)], ["work"]⟩
    ⟨allTypes, [brokerModule, operatorModule], "out", false⟩ "east"
  have same : wornRun = (some result, w) := ran
  have holds := written
  rw [same] at holds
  obtain ⟨attempts, order, -, happened, faithful, -, reported⟩ := accounted holds
  have named := congrArg (List.map fun p : Module × String => (p.1.name, p.2)) order
  rw [List.map_map] at named
  refine ⟨attempts, failed, written, by decide +kernel, by decide +kernel,
    named.trans (by decide), ?_, ?_, fun none => ?_⟩
  · rw [same, happened]
  · rw [same]
    exact faithful
  · rw [if_pos none] at reported
    rw [same, reported] at failed
    cases failed

end MultiCluster.Gather
