import MultiCluster.Proofs.Starting
import MultiCluster.Proofs.Surroundings
import MultiCluster.Proofs.Writing

/-! Where gathered files come to lie. What a source answers decides the names of files, but not
their directory, and file names are single names. The directory of a cluster is one level below the
directory of the run and belongs to that cluster alone, provided that the cluster's name is none of
the few that a directory cannot have, which pass for names of directories all the same. -/
namespace MultiCluster.Gather

open Files

variable {α : Type} {o : Options} {m : Module} {k : Cluster.Kind} {pod : Pod} {v : Json}
  {p : Part} {ps : List Part} {P : Requests.Request → Prop} {clusters : List String}
  {cluster container directory name other selector : String} {t : Tree}

section Names

def fileChar (c : Char) : Char := if isFileChar c then c else '_'

theorem fileChar_ne_slash {c : Char} : fileChar c ≠ '/' := by
  unfold fileChar
  split_ifs with kept
  · rintro rfl
    exact absurd kept (by decide)
  · decide

theorem fileChar_eq_dot {c : Char} : fileChar c = '.' ↔ c = '.' := by
  unfold fileChar
  split_ifs with kept
  · rfl
  · constructor
    · intro same
      exact absurd same (by decide)
    · rintro rfl
      exact absurd rfl kept

theorem toList_fileName : (fileName name).toList = name.toList.map fileChar :=
  String.toList_ofList

theorem fileName_eq_dots {n : Nat} : fileName name = String.ofList (List.replicate n '.') ↔
    name = String.ofList (List.replicate n '.') := by
  simp only [← String.toList_inj, toList_fileName, String.toList_ofList, List.eq_replicate_iff,
    List.length_map, List.forall_mem_map, fileChar_eq_dot]

theorem slash_not_mem_fileName : '/' ∉ (fileName name).toList := by
  rw [toList_fileName]
  intro member
  obtain ⟨c, -, same⟩ := List.mem_map.mp member
  exact fileChar_ne_slash same

/-- The directory of a cluster has a single name, but for the clusters of three names. -/
theorem isComponent_fileName_iff : IsComponent (fileName name) ↔ name ∉ ["", ".", ".."] := by
  have empty : fileName name = "" ↔ name = "" := @fileName_eq_dots name 0
  have here : fileName name = "." ↔ name = "." := @fileName_eq_dots name 1
  have up : fileName name = ".." ↔ name = ".." := @fileName_eq_dots name 2
  simp [IsComponent, slash_not_mem_fileName, empty, here, up]

theorem isComponent_of_underscore (underscore : '_' ∈ name.toList) :
    IsComponent (fileName name) := by
  rw [isComponent_fileName_iff]
  intro special
  simp only [List.mem_cons, List.not_mem_nil, or_false] at special
  rcases special with rfl | rfl | rfl <;> exact absurd underscore (by decide)

theorem isComponent_logFile : IsComponent (logFile name container) :=
  isComponent_of_underscore (by simp)

theorem isComponent_objectFile : IsComponent (objectFile k name) :=
  isComponent_of_underscore (by simp)

theorem isComponent_moduleName (listed : m ∈ modules) : IsComponent m.name := by
  have each : ∀ m ∈ modules, IsComponent m.name := by decide
  exact each m listed

end Names

section Requests

/-- A request that is no file to write, or one in a directory. -/
def WritesIn (directory : String) : Requests.Request → Prop
  | .inl (.inl _) => True
  | .inl (.inr s) => s.directory = directory ∧ IsComponent s.name
  | .inr _ => True

theorem asks_total {work : α → Gathering Nat} {as : List α} (each : ∀ a ∈ as, (work a).run.Asks P) :
    (total work as).run.Asks P := by
  induction as with
  | nil => trivial
  | cons a rest ih =>
    obtain ⟨first, others⟩ := List.forall_mem_cons.mp each
    exact Program.asks_action_bind first fun _ =>
      Program.asks_action_bind (ih others) fun _ => trivial

theorem asks_save {s : Saving} (inside : s.directory = directory) (single : IsComponent s.name) :
    (save s).run.Asks (WritesIn directory) :=
  ⟨⟨inside, single⟩, fun _ => trivial⟩

theorem asks_gatherLog : (gatherLog o m directory pod container).run.Asks (WritesIn directory) := by
  refine ⟨trivial, fun answer => ?_⟩
  cases answer with
  | ok text => exact Program.asks_action_bind (asks_save rfl isComponent_logFile) fun _ => trivial
  | error e => exact ⟨trivial, fun _ => trivial⟩

theorem asks_gatherSelected :
    (gatherSelected o m directory selector).run.Asks (WritesIn directory) :=
  Program.asks_action_bind ⟨trivial, fun _ => trivial⟩ fun _ =>
    asks_total fun _ _ => asks_total fun _ _ => asks_gatherLog

theorem asks_gatherObject : (gatherObject o directory k v).run.Asks (WritesIn directory) :=
  Program.asks_action_bind (asks_save rfl isComponent_objectFile) fun _ => trivial

theorem asks_gatherKind : (gatherKind o m directory k).run.Asks (WritesIn directory) :=
  Program.asks_action_bind ⟨trivial, fun _ => trivial⟩ fun _ =>
    asks_total fun _ _ => asks_gatherObject

theorem asks_parts (part : p ∈ m.parts o cluster) :
    p.work.run.Asks (WritesIn (join (clusterDirectory o cluster) m.name)) := by
  rcases List.mem_append.mp part with logs | resources
  · split_ifs at logs
    · obtain rfl := List.mem_singleton.mp logs
      exact asks_total fun _ _ => asks_gatherSelected
    · cases logs
  · split_ifs at resources
    · obtain rfl := List.mem_singleton.mp resources
      exact asks_total fun _ _ => asks_gatherKind
    · cases resources

theorem asks_gather (works : p.work.run.Asks P) (tells : ∀ e, P (.inr e)) : p.gather.Asks P := by
  refine ⟨tells _, fun _ => works.bind fun result => ?_⟩
  cases result with
  | ok count => exact ⟨tells _, fun _ => trivial⟩
  | error e => exact ⟨tells _, fun _ => trivial⟩

theorem asks_gatherParts (works : ∀ p ∈ ps, p.work.run.Asks P) (tells : ∀ e, P (.inr e)) :
    (gatherParts ps).Asks P := by
  induction ps with
  | nil => trivial
  | cons p rest ih =>
    obtain ⟨first, others⟩ := List.forall_mem_cons.mp works
    exact (asks_gather first tells).bind fun _ => (ih others).bind fun _ => trivial

/-- Whatever the answers, files are written in the directories of modules below the cluster's. -/
theorem asks_collect : (collect o cluster).run.Asks fun r =>
    ∃ m ∈ modules, WritesIn (join (clusterDirectory o cluster) m.name) r := by
  have works : ∀ p ∈ parts o cluster, p.work.run.Asks fun r =>
      ∃ m ∈ modules, WritesIn (join (clusterDirectory o cluster) m.name) r := by
    intro p part
    obtain ⟨m, wanted, inside⟩ := List.mem_flatMap.mp part
    have listed : m ∈ modules := List.mem_of_mem_filter wanted
    exact (asks_parts inside).imp fun r writes => ⟨m, listed, writes⟩
  have tells (e : Event) : ∃ m ∈ modules,
      WritesIn (join (clusterDirectory o cluster) m.name) (.inr e) :=
    ⟨_, List.mem_cons_self, trivial⟩
  exact (asks_gatherParts works tells).bind fun _ => trivial

end Requests

section Tree

def writing : Surroundings Requests Tree
  | .inl (.inl _), t, _, t' => t' = t
  | .inl (.inr s), t, result, t' => t.write s.directory s.name s.text = (result, t')
  | .inr _, t, _, t' => t' = t

def ownLocation (base : Location) (cluster : String) : Location := base ++ [fileName cluster]

def OwnFile (base : Location) (cluster : String) (p : Location) : Prop :=
  ∃ m ∈ modules, ∃ file, IsComponent file ∧ p = ownLocation base cluster ++ [m.name, file]

theorem place_of_current {t' : Tree} {path : String} (same : t'.current = t.current) :
    t'.place path = t.place path := by
  rw [Tree.place, Tree.place, Tree.start, Tree.start, same]

/-- Files of different directories are different files. -/
theorem not_prefix_of_ownFile {base p : Location} (own : OwnFile base other p)
    (apart : fileName other ≠ fileName cluster) : ¬ ownLocation base cluster <+: p := by
  obtain ⟨m, -, file, -, rfl⟩ := own
  rintro ⟨rest, same⟩
  simp only [ownLocation, List.append_assoc, List.cons_append, List.nil_append,
    List.append_cancel_left_eq, List.cons.injEq] at same
  exact apart same.1.symm

theorem writes_of_writesIn (plain : cluster ∉ ["", ".", ".."]) (listed : m ∈ modules)
    {r : Requests.Request} {a : Requests.Answer r} {t' : Tree}
    (inside : WritesIn (join (clusterDirectory o cluster) m.name) r) (answered : writing r t a t') :
    Tree.WritesOnly (OwnFile (t.place o.directory) cluster) t t' := by
  rcases r with (q | s) | e
  · obtain rfl : t' = t := answered
    exact .refl
  · obtain ⟨lies, single⟩ := inside
    have wrote : t.write s.directory s.name s.text = (a, t') := answered
    have goal : step (t.place s.directory) s.name =
        ownLocation (t.place o.directory) cluster ++ [m.name, s.name] := by
      rw [lies, Tree.place_join (isComponent_moduleName listed), clusterDirectory,
        Tree.place_join (isComponent_fileName_iff.mpr plain), step_component single]
      simp [ownLocation]
    have only := t.write_writes s.directory s.name s.text
    rw [wrote] at only
    exact only.mono fun p here => ⟨m, listed, s.name, single, here.trans goal⟩
  · obtain rfl : t' = t := answered
    exact .refl

/-- While others do with the tree what they like, gathering from a cluster writes only files of its
own directory. -/
theorem collect_writes (plain : cluster ∉ ["", ".", ".."]) :
    (collect o cluster).run.Meets writing (fun s s' => s'.current = s.current)
      (Tree.WritesOnly (OwnFile (t.place o.directory) cluster)) (fun _ _ => True) t := by
  have each : (collect o cluster).run.Meets writing (fun s s' => s'.current = s.current)
      (fun s s' => Tree.WritesOnly (OwnFile (s.place o.directory) cluster) s s')
      (fun _ _ => True) t :=
    asks_collect.meets fun r s a s' ⟨m, listed, inside⟩ answered =>
      writes_of_writesIn plain listed inside answered
  have still := each.invariant (J := fun s => s.current = t.current)
    (fun s s' moved here => moved.trans here) (fun s s' wrote here => wrote.current.trans here) rfl
  refine still.mono (fun s s' ⟨wrote, here⟩ => ?_) fun _ _ _ => trivial
  rwa [place_of_current (wrote.current.symm.trans here)] at wrote

/-- Every cluster of a run whose name is one that a directory can have owns a directory right below
that of the run. Gathering from it writes files only there, and gathering from others of the kind
writes none there. -/
theorem gathers_apart {collector : String → Program Requests Ending} {fleet : Fleet} {i : Nat}
    (started : start o clusters collector = .ok fleet) (found : clusters[i]? = some cluster)
    (plain : cluster ∉ ["", ".", ".."]) (t : Tree) :
    IsComponent (fileName cluster) ∧
      (collect o cluster).run.Meets writing (fun s s' => s'.current = s.current)
        (Tree.WritesOnly (OwnFile (t.place o.directory) cluster)) (fun _ _ => True) t ∧
      ∀ j other, clusters[j]? = some other → j ≠ i → other ∉ ["", ".", ".."] →
        (collect o other).run.Meets writing (fun s s' => s'.current = s.current)
          (Tree.WritesOnly fun p => ¬ ownLocation (t.place o.directory) cluster <+: p)
          (fun _ _ => True) t := by
  refine ⟨isComponent_fileName_iff.mpr plain, collect_writes plain, ?_⟩
  intro j other there different plain'
  have apart := (apart_of_start started).ne there found different
  exact (collect_writes plain').mono
    (fun s s' wrote => wrote.mono fun p own => not_prefix_of_ownFile own apart) fun _ _ _ => trivial

def gatewayLogs : Options := ⟨[logs], [connectivity], "out", false⟩

def onePod : Program.Handler Requests Tree
  | .inl (.inl (.pods _ selector)), t =>
    (some (.ok (if selector = "app=submariner-gateway" then [⟨"gw-1", ["gateway"]⟩] else [])), t)
  | .inl (.inl (.log _ _ _)), t => (some (.ok "started\n"), t)
  | .inl (.inl (.objects _ _)), t => (some (.ok []), t)
  | .inl (.inr s), t => Tree.handler s t
  | .inr _, t => (some (), t)

theorem gathers_apart_east_west : ∃ fleet,
    start gatewayLogs ["east", "we/st"] (fun _ => .never) = .ok fleet ∧
      ["east", "we/st"][1]? = some "we/st" ∧ "we/st" ∉ ["", ".", ".."] ∧
      IsComponent (fileName "we/st") ∧
      (collect gatewayLogs "we/st").run.Meets writing (fun s s' => s'.current = s.current)
        (Tree.WritesOnly (OwnFile ["work", "out"] "we/st")) (fun _ _ => True) ⟨[], ["work"]⟩ ∧
      (collect gatewayLogs "east").run.Meets writing (fun s s' => s'.current = s.current)
        (Tree.WritesOnly fun p => ¬ ["work", "out", "we_st"] <+: p) (fun _ _ => True)
        ⟨[], ["work"]⟩ :=
  have started : start gatewayLogs ["east", "we/st"] (fun _ => .never) =
      .ok ⟨["east", "we/st"].map fun name => (name, .running (scopedTo name .never)), false⟩ := rfl
  have plain : "we/st" ∉ ["", ".", ".."] := by decide
  have apart := gathers_apart started (i := 1) rfl plain ⟨[], ["work"]⟩
  ⟨_, started, rfl, plain, apart.1, apart.2.1, apart.2.2 0 "east" rfl (by decide) (by decide)⟩

/-- A cluster named `..` is accepted, and its files come to lie beside the directory of the run. -/
theorem gathers_beside :
    let collector := fun name => (collect gatewayLogs name).run.bind fun r => .done (.returned r)
    let t : Tree := ⟨[(["work"], .directory)], ["work"]⟩
    let file : Location := ["work", "connectivity", "gw-1_gateway.log"]
    (start gatewayLogs [".."] collector).toOption.isSome ∧
      Tree.entry? ((collect gatewayLogs "..").run.run onePod t).2 file =
        some (.file (some "started\n")) ∧
      t.place gatewayLogs.directory = ["work", "out"] ∧ ¬ ["work", "out"] <+: file := by
  refine ⟨by decide +kernel, by decide +kernel, by decide +kernel, by decide⟩

end Tree

end MultiCluster.Gather
