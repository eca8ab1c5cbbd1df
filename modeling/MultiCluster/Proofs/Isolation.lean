import Mathlib.Logic.Function.Basic
import MultiCluster.Proofs.Starting
import MultiCluster.Proofs.Tasks

/-! Gathering from many clusters at once. Whatever the order in which their tasks make progress, the
result is put together from how the clusters fared, in the order of the request, and each came along
its own program or was cancelled. Clusters that have a world each fare as they would alone. -/
namespace MultiCluster.Gather

open Program (Proceeds)

variable {σ τ : Type} {o : Options} {clusters : List String} {tasks : List (String × Task)}
  {collector collector' : String → Program Requests Ending}
  {h h' : String → Program.Handler Requests τ}
  {worlds worlds' : String → τ} {moves moves' : List Move} {cancelled : Bool} {f : Fleet}
  {name other : String} {i j : Nat} {t u : Task} {w : τ} {e : String → Ending}

def gatherAll (o : Options) (clusters : List String) (collector : String → Program Requests Ending)
    (h : String → Program.Handler Requests σ) (moves : List Move) (s : σ) :
    Option (Except Error (List String)) × σ :=
  match start o clusters collector with
  | .error e => (some (.error e), s)
  | .ok fleet => ((fleet.run h moves s).1.result?, (fleet.run h moves s).2)

def each (h : String → Program.Handler Requests τ) (name : String) :
    Program.Handler Requests (String → τ) :=
  (h name).on (fun worlds => worlds name) fun w worlds => Function.update worlds name w

section Moves

theorem each_apply {r : Requests.Request} : each h name r worlds =
    ((h name r (worlds name)).1, Function.update worlds name (h name r (worlds name)).2) := rfl

theorem progress_each {p : Program Requests Ending} : progress (each h name) p worlds =
    ((progress (h name) p (worlds name)).1,
      Function.update worlds name (progress (h name) p (worlds name)).2) := by
  induction p generalizing worlds with
  | done e => simp [progress]
  | never => simp [progress]
  | ask r next ih =>
    rw [progress, progress, each_apply]
    cases answered : h name r (worlds name) with
    | mk answer w =>
      cases answer with
      | some a => simp [ih]
      | none => rfl

theorem poll_each : t.poll (each h name) cancelled name worlds =
    ((t.poll (h name) cancelled name (worlds name)).1,
      Function.update worlds name (t.poll (h name) cancelled name (worlds name)).2) := by
  cases t with
  | ended e => simp [Task.poll]
  | running p =>
    cases cancelled with
    | true => simp [Task.poll]
    | false => exact progress_each

/-- A poll changes one task and the world of its cluster. -/
theorem pollAt_each (found : tasks[j]? = some (other, u)) :
    pollAt (each h) cancelled j tasks worlds =
      (tasks.set j (other, (u.poll (h other) cancelled other (worlds other)).1),
        Function.update worlds other (u.poll (h other) cancelled other (worlds other)).2) := by
  induction j generalizing tasks with
  | zero =>
    cases tasks with
    | nil => cases found
    | cons task rest =>
      obtain rfl : task = (other, u) := by simpa using found
      rw [pollAt, poll_each]
      rfl
  | succ j ih =>
    cases tasks with
    | nil => cases found
    | cons task rest =>
      rw [pollAt, ih (by simpa using found)]
      rfl

theorem pollAt_outside {h : String → Program.Handler Requests σ} {s : σ}
    (absent : tasks[j]? = none) :
    pollAt h cancelled j tasks s = (tasks, s) := by
  induction j generalizing tasks with
  | zero =>
    cases tasks with
    | nil => rfl
    | cons task rest => cases absent
  | succ j ih =>
    cases tasks with
    | nil => rfl
    | cons task rest => rw [pollAt, ih (by simpa using absent)]

theorem names_pollAt (h : String → Program.Handler Requests σ) (cancelled : Bool) (j : Nat)
    (tasks : List (String × Task)) (s : σ) :
    (pollAt h cancelled j tasks s).1.map (·.1) = tasks.map (·.1) := by
  induction tasks generalizing j with
  | nil => cases j <;> rfl
  | cons task rest ih =>
    cases j with
    | zero => rfl
    | succ j => exact congrArg (task.1 :: ·) (ih j)

theorem names_run {h : String → Program.Handler Requests σ} {s : σ} :
    (f.run h moves s).1.tasks.map (·.1) = f.tasks.map (·.1) := by
  induction moves generalizing f s with
  | nil => rfl
  | cons m rest ih =>
    rw [Fleet.run]
    refine ih.trans ?_
    cases m with
    | cancel => rfl
    | poll j => exact names_pollAt h f.cancelled j f.tasks s

def Fleet.Faithful (f : Fleet) (began : String → Program Requests Ending) : Prop :=
  ∀ entry ∈ f.tasks, Came entry.1 (began entry.1) f.cancelled entry.2

theorem faithful_pollAt {h : String → Program.Handler Requests σ} {s : σ}
    {began : String → Program Requests Ending}
    (faithful : ∀ entry ∈ tasks, Came entry.1 (began entry.1) cancelled entry.2) :
    ∀ entry ∈ (pollAt h cancelled j tasks s).1, Came entry.1 (began entry.1) cancelled entry.2 := by
  induction tasks generalizing j with
  | nil => cases j <;> exact faithful
  | cons task rest ih =>
    obtain ⟨first, others⟩ := List.forall_mem_cons.mp faithful
    cases j with
    | zero => exact List.forall_mem_cons.mpr ⟨first.poll, others⟩
    | succ j => exact List.forall_mem_cons.mpr ⟨first, ih others⟩

theorem Fleet.Faithful.run {h : String → Program.Handler Requests σ} {s : σ}
    {began : String → Program Requests Ending} (faithful : f.Faithful began) :
    (f.run h moves s).1.Faithful began := by
  induction moves generalizing f s with
  | nil => exact faithful
  | cons m rest ih =>
    rw [Fleet.run]
    refine ih ?_
    cases m with
    | cancel =>
      intro entry member
      exact (faithful entry member).imp_right fun ⟨_, ended⟩ => ⟨rfl, ended⟩
    | poll j => exact faithful_pollAt faithful

theorem cancel_mem_of_run {h : String → Program.Handler Requests σ} {s : σ}
    (cancelled : (f.run h moves s).1.cancelled = true) : f.cancelled = true ∨ .cancel ∈ moves := by
  induction moves generalizing f s with
  | nil => exact .inl cancelled
  | cons m rest ih =>
    cases m with
    | cancel => exact .inr List.mem_cons_self
    | poll j => exact (ih cancelled).imp_right (List.mem_cons_of_mem _)

structure Shows (clusters : List String) (i : Nat) (name : String) (f : Fleet) (worlds : String → τ)
    (t : Task) (w : τ) : Prop where
  names : f.tasks.map (·.1) = clusters
  task : f.tasks[i]? = some (name, t)
  world : worlds name = w

theorem Shows.poll (shows : Shows clusters i name f worlds t w) (apart : clusters.Nodup) :
    Shows clusters i name (f.move (each h) worlds (.poll j)).1 (f.move (each h) worlds (.poll j)).2
      (if j = i then (t.poll (h name) f.cancelled name w).1 else t)
      (if j = i then (t.poll (h name) f.cancelled name w).2 else w) := by
  obtain ⟨names, task, rfl⟩ := shows
  have there : clusters[i]? = some name := by simp [← names, task]
  rw [Fleet.move]
  cases found : f.tasks[j]? with
  | none =>
    have other : j ≠ i := by
      rintro rfl
      rw [found] at task
      cases task
    rw [pollAt_outside found, if_neg other, if_neg other]
    exact ⟨names, task, rfl⟩
  | some entry =>
    obtain ⟨other, u⟩ := entry
    obtain ⟨inside, itself⟩ := List.getElem?_eq_some_iff.mp found
    have kept := (names_pollAt (each h) f.cancelled j f.tasks worlds).trans names
    rw [pollAt_each found] at kept ⊢
    by_cases own : j = i
    · subst own
      obtain ⟨rfl, rfl⟩ : other = name ∧ u = t := by simpa [found] using task
      rw [if_pos rfl, if_pos rfl]
      exact ⟨kept, List.getElem?_set_self inside, Function.update_self ..⟩
    · rw [if_neg own, if_neg own]
      have different : name ≠ other := by
        rintro rfl
        have again : clusters[j]? = some name := by simp [← names, found]
        have bound : j < clusters.length := by simpa [← names] using inside
        exact own ((List.getElem?_inj bound apart).mp (again.trans there.symm))
      exact ⟨kept, (List.getElem?_set_ne own).trans task, Function.update_of_ne different ..⟩

theorem Shows.run (shows : Shows clusters i name f worlds t w) (apart : clusters.Nodup) :
    Shows clusters i name (f.run (each h) moves worlds).1 (f.run (each h) moves worlds).2
      (t.follow (h name) name i moves f.cancelled w).1
      (t.follow (h name) name i moves f.cancelled w).2 := by
  -- The moves of the others leave the task and the world of the cluster as they are.
  induction moves generalizing f worlds t w with
  | nil => exact shows
  | cons m rest ih =>
    cases m with
    | cancel => exact ih (f := { f with cancelled := true }) ⟨shows.names, shows.task, shows.world⟩
    | poll j =>
      have later := ih (shows.poll (h := h) (j := j) apart)
      have same : (f.move (each h) worlds (.poll j)).1.cancelled = f.cancelled := rfl
      rw [same] at later
      rw [Fleet.run, Task.follow]
      split_ifs at later ⊢ with own
      · exact later
      · exact later

end Moves

section Results

/-- How a cluster fares, after which moves, in a run that it is part of. -/
def fate (h : String → Program.Handler Requests τ) (collector : String → Program Requests Ending)
    (clusters : List String) (worlds : String → τ) (name : String) (moves : List Move) : Task × τ :=
  Task.follow (h name) name (clusters.idxOf name) moves false
    (.running (scopedTo name (collector name))) (worlds name)

theorem failure?_eq_none_iff {e : Ending} : e.failure? = none ↔ e = .returned (.ok ()) := by
  cases e with
  | returned result => cases result <;> simp [Ending.failure?]
  | panicked task message => simp [Ending.failure?]

/-- The result of a run over clusters, for what has become of their tasks. -/
structure Aggregates (clusters : List String) (task : String → Task)
    (result : Option (Except Error (List String))) : Prop where
  waits {name : String} : name ∈ clusters → (task name).ending? = none → result = none
  succeeds : (∀ name ∈ clusters, (task name).ending? = some (.returned (.ok ()))) →
    result = some (.ok clusters)
  fails {ending : String → Ending} {name : String} :
    (∀ name ∈ clusters, (task name).ending? = some (ending name)) → name ∈ clusters →
    ending name ≠ .returned (.ok ()) →
    result = some (.error (.clusterFailures
      (clusters.filterMap fun name => (ending name).failure?.map fun text => (name, text))))

theorem endings?_map {task : String → Task} {ending : String → Ending} {cancelled : Bool}
    (ended : ∀ name ∈ clusters, (task name).ending? = some (ending name)) :
    Fleet.endings? ⟨clusters.map fun name => (name, task name), cancelled⟩ =
      some (clusters.map fun name => (name, ending name)) := by
  induction clusters with
  | nil => rfl
  | cons name rest ih =>
    obtain ⟨first, others⟩ := List.forall_mem_cons.mp ended
    have later := ih others
    rw [Fleet.endings?] at later ⊢
    simp [first, later]

theorem endings?_running {task : String → Task} {cancelled : Bool} (member : name ∈ clusters)
    (running : (task name).ending? = none) :
    Fleet.endings? ⟨clusters.map fun name => (name, task name), cancelled⟩ = none := by
  induction clusters with
  | nil => cases member
  | cons other rest ih =>
    rw [Fleet.endings?]
    rcases List.mem_cons.mp member with rfl | later
    · simp [running]
    · have none := ih later
      rw [Fleet.endings?] at none
      cases here : (task other).ending? with
      | none => simp [here]
      | some e => simp [here, none]

/-- The summary of endings that are given by name. -/
theorem summary_map {ending : String → Ending} :
    summary (clusters.map fun name => (name, ending name)) =
      let failed := clusters.filterMap fun name =>
        (ending name).failure?.map fun text => (name, text)
      if failed.isEmpty then .ok clusters else .error (.clusterFailures failed) := by
  simp only [summary, List.filterMap_map, List.map_map, Function.comp_def, List.map_id']

theorem summary_of_ok {ending : String → Ending}
    (good : ∀ name ∈ clusters, ending name = .returned (.ok ())) :
    summary (clusters.map fun name => (name, ending name)) = .ok clusters := by
  have none : clusters.filterMap
      (fun name => (ending name).failure?.map fun text => (name, text)) = [] := by
    simpa [List.filterMap_eq_nil_iff, failure?_eq_none_iff] using good
  simp [summary_map, none]

theorem summary_of_failure {ending : String → Ending} (member : name ∈ clusters)
    (bad : ending name ≠ .returned (.ok ())) :
    summary (clusters.map fun name => (name, ending name)) = .error (.clusterFailures
      (clusters.filterMap fun name => (ending name).failure?.map fun text => (name, text))) := by
  have some : clusters.filterMap
      (fun name => (ending name).failure?.map fun text => (name, text)) ≠ [] := by
    intro none
    have silent := List.filterMap_eq_nil_iff.mp none name member
    exact bad (failure?_eq_none_iff.mp (by simpa using silent))
  simp only [summary_map, List.isEmpty_iff, some, if_false]

theorem aggregates {task : String → Task} {cancelled : Bool} : Aggregates clusters task
    (Fleet.result? ⟨clusters.map fun name => (name, task name), cancelled⟩) where
  waits member running := by rw [Fleet.result?, endings?_running member running, Option.map_none]
  succeeds ended := by
    rw [Fleet.result?, endings?_map ended, Option.map_some, summary_of_ok fun _ _ => rfl]
  fails ended member bad := by
    rw [Fleet.result?, endings?_map ended, Option.map_some, summary_of_failure member bad]

end Results

section Runs

/-- A run that is refused makes no request for any cluster. -/
theorem gatherAll_refused (refused : ¬ (o.Known ∧ Apart clusters)) :
    ∃ text, ∀ collector (h : String → Program.Handler Requests σ) moves s,
      gatherAll o clusters collector h moves s =
        (some (.error (.invalidConfiguration text)), s) := by
  rcases @start_cases o clusters with ⟨known, apart, -⟩ | ⟨-, text, failed⟩
  · exact absurd ⟨known, apart⟩ refused
  · refine ⟨text, fun collector h moves s => ?_⟩
    rw [gatherAll, failed]

def freshTasks (collector : String → Program Requests Ending) (clusters : List String) :
    List (String × Task) :=
  clusters.map fun name => (name, .running (scopedTo name (collector name)))

theorem names_freshTasks : (freshTasks collector clusters).map (·.1) = clusters := by
  simp [freshTasks, Function.comp_def]

/-- Tasks of different clusters are a task for each cluster. -/
theorem exists_task (names : tasks.map (·.1) = clusters) (apart : clusters.Nodup) :
    ∃ task : String → Task, tasks = clusters.map fun name => (name, task name) := by
  induction tasks generalizing clusters with
  | nil => exact ⟨fun _ => .running .never, by simp [← names]⟩
  | cons entry rest ih =>
    obtain ⟨name, t⟩ := entry
    subst names
    obtain ⟨fresh, others⟩ := List.nodup_cons.mp apart
    obtain ⟨task, same⟩ := ih rfl others
    refine ⟨Function.update task name t, ?_⟩
    have elsewhere : ∀ other ∈ rest.map (·.1),
        (other, task other) = (other, Function.update task name t other) := by
      intro other member
      have different : other ≠ name := by
        rintro rfl
        exact fresh member
      rw [Function.update_of_ne different]
    rw [List.map_cons, List.map_cons, Function.update_self, ← List.map_congr_left elsewhere, ← same]

/-- Also where all clusters share one world, the result is put together from how each came along
its own program, or was cancelled. -/
theorem gatherAll_shared (known : o.Known) (apart : Apart clusters)
    (h : String → Program.Handler Requests σ) (s : σ) : ∃ task,
      Aggregates clusters task (gatherAll o clusters collector h moves s).1 ∧
      ∀ name ∈ clusters, (scopedTo name (collector name)).Reaches (task name).program ∨
        .cancel ∈ moves ∧ task name = .ended (givenUp name) := by
  rcases @start_cases o clusters with ⟨-, -, started⟩ | ⟨refused, -⟩
  · have names := @names_run _ moves ⟨freshTasks collector clusters, false⟩ h s
    rw [names_freshTasks] at names
    obtain ⟨task, same⟩ := exists_task names apart.of_map
    have fresh : Fleet.Faithful ⟨freshTasks collector clusters, false⟩
        fun name => scopedTo name (collector name) := by
      intro entry member
      obtain ⟨name, -, rfl⟩ := List.mem_map.mp member
      exact .inl .here
    refine ⟨task, ?_, fun name member => ?_⟩
    · have result := @aggregates clusters task
        (Fleet.run h moves ⟨freshTasks collector clusters, false⟩ s).1.cancelled
      rw [← same] at result
      rw [gatherAll, started]
      exact result
    · have listed : (name, task name) ∈
          (Fleet.run h moves ⟨freshTasks collector clusters, false⟩ s).1.tasks := by
        rw [same]
        exact List.mem_map_of_mem member
      refine (fresh.run _ listed).imp_right fun ⟨cancelled, ended⟩ => ⟨?_, ended⟩
      exact (cancel_mem_of_run cancelled).resolve_left Bool.false_ne_true
  · exact absurd ⟨known, apart⟩ refused

theorem shows_fate (h : String → Program.Handler Requests τ)
    (collector : String → Program Requests Ending) (worlds : String → τ) (moves : List Move)
    (apart : clusters.Nodup) (member : name ∈ clusters) :
    Shows clusters (clusters.idxOf name) name
      (Fleet.run (each h) moves ⟨freshTasks collector clusters, false⟩ worlds).1
      (Fleet.run (each h) moves ⟨freshTasks collector clusters, false⟩ worlds).2
      (fate h collector clusters worlds name moves).1
      (fate h collector clusters worlds name moves).2 := by
  have fresh : Shows clusters (clusters.idxOf name) name ⟨freshTasks collector clusters, false⟩
      worlds (.running (scopedTo name (collector name))) (worlds name) := by
    refine ⟨names_freshTasks, ?_, rfl⟩
    simp [freshTasks, List.getElem?_idxOf member]
  exact fresh.run apart

/-- In the end every cluster has the task of its own fate. -/
theorem tasks_of_run (apart : clusters.Nodup) :
    (Fleet.run (each h) moves ⟨freshTasks collector clusters, false⟩ worlds).1.tasks =
      clusters.map fun name => (name, (fate h collector clusters worlds name moves).1) := by
  have names := @names_run _ moves ⟨freshTasks collector clusters, false⟩ (each h) worlds
  rw [names_freshTasks] at names
  refine List.ext_getElem? fun i => ?_
  cases there : clusters[i]? with
  | some name =>
    obtain ⟨inside, rfl⟩ := List.getElem?_eq_some_iff.mp there
    have shows := shows_fate h collector worlds moves apart (List.getElem_mem inside)
    have index : clusters.idxOf clusters[i] = i := apart.idxOf_getElem i inside
    rw [← index, shows.task, index]
    simp [there]
  | none =>
    have outside := congrArg (fun listed : List String => listed[i]?) names
    simp only [List.getElem?_map, there, Option.map_eq_none_iff] at outside
    simp [outside, there]

/-- A run that is not refused puts together how the clusters fared. -/
theorem gatherAll_accepted (known : o.Known) (apart : Apart clusters) :
    Aggregates clusters (fun name => (fate h collector clusters worlds name moves).1)
        (gatherAll o clusters collector (each h) moves worlds).1 ∧
      ∀ name ∈ clusters, (gatherAll o clusters collector (each h) moves worlds).2 name =
        (fate h collector clusters worlds name moves).2 := by
  have distinct : clusters.Nodup := apart.of_map
  rcases @start_cases o clusters with ⟨-, -, started⟩ | ⟨refused, -⟩
  · have tasks := @tasks_of_run _ clusters collector h worlds moves distinct
    rw [gatherAll, started]
    refine ⟨?_, fun name member => (shows_fate h collector worlds moves distinct member).world⟩
    have result := @aggregates clusters
      (fun name => (fate h collector clusters worlds name moves).1)
      (Fleet.run (each h) moves ⟨freshTasks collector clusters, false⟩ worlds).1.cancelled
    rw [← tasks] at result
    exact result
  · exact absurd ⟨known, apart⟩ refused

theorem fares_fate : Fares (h name) name (clusters.idxOf name) (scopedTo name (collector name))
    (worlds name) (fate h collector clusters worlds name) :=
  fares_follow

/-- How a cluster fares is a matter of its own collector, world and moves. -/
theorem fate_congr (answers : h' name = h name) (program : collector' name = collector name)
    (world : worlds' name = worlds name)
    (own : moves'.filter (Move.concerns (clusters.idxOf name)) =
      moves.filter (Move.concerns (clusters.idxOf name))) :
    fate h' collector' clusters worlds' name moves' =
      fate h collector clusters worlds name moves := by
  rw [fate, fate, answers, program, world, ← follow_filter, own, follow_filter]

/-- Gathering from many clusters is refused for unknown types and modules and for clusters that
would share a directory. Otherwise, whatever the schedule, the result is put together from how the
clusters fared, in the order of the request: each came along its own program or was cancelled, and
where the clusters have a world each, how one fares is a matter of its own alone. -/
theorem gatherAll_isolates (o : Options) (clusters : List String)
    (collector : String → Program Requests Ending) (moves : List Move) :
    (¬ (o.Known ∧ Apart clusters) →
      ∃ text, ∀ collector (h : String → Program.Handler Requests σ) moves s,
        gatherAll o clusters collector h moves s =
          (some (.error (.invalidConfiguration text)), s)) ∧
    (o.Known ∧ Apart clusters →
      (∀ (h : String → Program.Handler Requests σ) s, ∃ task,
        Aggregates clusters task (gatherAll o clusters collector h moves s).1 ∧
        ∀ name ∈ clusters, (scopedTo name (collector name)).Reaches (task name).program ∨
          .cancel ∈ moves ∧ task name = .ended (givenUp name)) ∧
      ∀ (h : String → Program.Handler Requests τ) worlds,
        Aggregates clusters (fun name => (fate h collector clusters worlds name moves).1)
          (gatherAll o clusters collector (each h) moves worlds).1 ∧
        ∀ name ∈ clusters,
          (gatherAll o clusters collector (each h) moves worlds).2 name =
            (fate h collector clusters worlds name moves).2 ∧
          Fares (h name) name (clusters.idxOf name) (scopedTo name (collector name)) (worlds name)
            (fate h collector clusters worlds name) ∧
          ∀ h' collector' worlds' moves', h' name = h name → collector' name = collector name →
            worlds' name = worlds name → moves'.filter (Move.concerns (clusters.idxOf name)) =
              moves.filter (Move.concerns (clusters.idxOf name)) →
            fate h' collector' clusters worlds' name moves' =
              fate h collector clusters worlds name moves) := by
  refine ⟨gatherAll_refused, fun ⟨known, apart⟩ => ⟨gatherAll_shared known apart, ?_⟩⟩
  intro h worlds
  obtain ⟨result, world⟩ := @gatherAll_accepted τ o clusters collector h worlds moves known apart
  exact ⟨result, fun name member => ⟨world name member, fares_fate,
    fun _ _ _ _ answers program same own => fate_congr answers program same own⟩⟩

def mixed : String → Program Requests Ending
  | "east" => .done (.returned (.ok ()))
  | "west" => .done (.returned (.error (.internal "unreachable" "gather")))
  | "north" => .done (.panicked 3 "bug")
  | _ => .never

def mixedEnding : String → Ending
  | "east" => .returned (.ok ())
  | "west" => .returned (.error (.internal "unreachable" "gather"))
  | "north" => .panicked 3 "bug"
  | name => givenUp name

def mixedMoves : List Move := [.poll 2, .poll 0, .poll 3, .poll 1, .cancel, .poll 3, .poll 0]

theorem gatherAll_isolates_mixed :
    (Options.Known ⟨[logs], [connectivity], "out", false⟩ ∧
      Apart ["east", "west", "north", "south"]) ∧
    (gatherAll ⟨[logs], [connectivity], "out", false⟩ ["east", "west", "north", "south"] mixed
      (each fun _ _ s => (none, s)) mixedMoves fun _ => ()).1 =
    some (.error (.clusterFailures [("west", (Error.internal "unreachable" "gather").message),
      ("north", "collection task aborted: task 3 panicked with message \"bug\""),
      ("south", (Error.cancelled "gather on south").message)])) := by
  have accepted : Options.Known ⟨[logs], [connectivity], "out", false⟩ ∧
      Apart ["east", "west", "north", "south"] := by decide
  have isolates := gatherAll_isolates (σ := Unit) (τ := Unit) ⟨[logs], [connectivity], "out", false⟩
    ["east", "west", "north", "south"] mixed mixedMoves
  obtain ⟨result, -⟩ := (isolates.2 accepted).2 (fun _ _ s => (none, s)) fun _ => ()
  have ended : ∀ name ∈ ["east", "west", "north", "south"],
      (fate (fun _ _ s => (none, s)) mixed ["east", "west", "north", "south"] (fun _ => ()) name
        mixedMoves).1.ending? = some (mixedEnding name) := by
    simp only [List.forall_mem_cons, List.not_mem_nil, false_implies, implies_true, and_true]
    exact ⟨rfl, rfl, rfl, rfl⟩
  have west : "west" ∈ ["east", "west", "north", "south"] := by decide
  have failed := result.fails ended west fun same => by cases same
  exact ⟨accepted, failed.trans rfl⟩

end Runs

end MultiCluster.Gather
