import MultiCluster.Gather.Collection

/-! Gathering from many clusters at once. Every cluster has a task of its own, which makes
progress whenever it is polled; a task that fails or breaks down does not touch the others. When
the run is cancelled, tasks that have not ended give up at their next poll. -/
namespace MultiCluster.Gather

inductive Ending where
  | returned (result : Except Error Unit)
  /-- The task broke down instead of returning. -/
  | panicked (task : Nat) (message : String)
  deriving Repr

inductive Task where
  | running (p : Program Requests Ending)
  | ended (e : Ending)

structure Fleet where
  /-- By cluster, in the order of the request. -/
  tasks : List (String × Task)
  cancelled : Bool

def scopedTo {α : Type} (scope : String) (p : Program Requests α) : Program Requests α :=
  Program.substituteRight (fun (e : Event) => report (e.inScope scope)) p

/-- The first name whose directory belongs to an earlier name, with that name; `seen` holds the
earlier ones. -/
def sharedDirectory? (seen : List String) : List String → Option (String × String)
  | [] => none
  | name :: rest =>
    match seen.find? fun other => fileName other == fileName name with
    | some other => some (other, name)
    | none => sharedDirectory? (seen ++ [name]) rest

/-- Accepts clusters that have a directory each. -/
def checkDirectories (clusters : List String) : Except Error Unit :=
  match sharedDirectory? [] clusters with
  | none => .ok ()
  | some (other, name) => .error (.invalidConfiguration ("clusters " ++ Text.quoted other ++
      " and " ++ Text.quoted name ++ " would both be gathered into directory " ++
      Text.quoted (fileName name)))

/-- The tasks of a run, none of which has been polled; rejected requests have no tasks. -/
def start (o : Options) (clusters : List String)
    (collector : String → Program Requests Ending) : Except Error Fleet := do
  o.validate
  checkDirectories clusters
  pure ⟨clusters.map fun name => (name, .running (scopedTo name (collector name))), false⟩

section
variable {σ : Type}

/-- Run a program until it ends or has to wait for an answer. -/
def progress (h : Program.Handler Requests σ) : Program Requests Ending → σ → Task × σ
  | .done e, s => (.ended e, s)
  | .never, s => (.running .never, s)
  | .ask r next, s =>
    match h r s with
    | (some a, s) => progress h (next a) s
    | (none, s) => (.running (.ask r next), s)

/-- One poll of a cluster's task. -/
def Task.poll (h : Program.Handler Requests σ) (cancelled : Bool) (name : String) (t : Task)
    (s : σ) : Task × σ :=
  match t with
  | .ended e => (.ended e, s)
  | .running p =>
    if cancelled then (.ended (.returned (.error (.cancelled ("gather on " ++ name)))), s)
    else progress h p s

inductive Move where
  | poll (index : Nat)
  | cancel
  deriving DecidableEq, Repr

/-- Poll the task of an index; `h` answers the requests of each cluster. -/
def pollAt (h : String → Program.Handler Requests σ) (cancelled : Bool) :
    Nat → List (String × Task) → σ → List (String × Task) × σ
  | _, [], s => ([], s)
  | 0, (name, t) :: rest, s =>
    let (t, s) := t.poll (h name) cancelled name s
    ((name, t) :: rest, s)
  | n + 1, task :: rest, s =>
    let (rest, s) := pollAt h cancelled n rest s
    (task :: rest, s)

def Fleet.move (h : String → Program.Handler Requests σ) (f : Fleet) (s : σ) : Move → Fleet × σ
  | .cancel => ({ f with cancelled := true }, s)
  | .poll index =>
    let (tasks, s) := pollAt h f.cancelled index f.tasks s
    ({ f with tasks := tasks }, s)

def Fleet.run (h : String → Program.Handler Requests σ) : List Move → Fleet → σ → Fleet × σ
  | [], f, s => (f, s)
  | m :: rest, f, s =>
    let (f, s) := f.move h s m
    Fleet.run h rest f s

end

def Ending.failure? : Ending → Option String
  | .returned (.ok ()) => none
  | .returned (.error e) => some e.message
  | .panicked task message => some ("collection task aborted: task " ++ Text.decimal task ++
      " panicked with message " ++ Text.quoted message)

def Task.ending? : Task → Option Ending
  | .running _ => none
  | .ended e => some e

/-- How each cluster's task ended; none while a task is still running. -/
def Fleet.endings? (f : Fleet) : Option (List (String × Ending)) :=
  f.tasks.mapM fun (name, t) => t.ending?.map fun e => (name, e)

def summary (endings : List (String × Ending)) : Except Error (List String) :=
  let failed := endings.filterMap fun (name, e) => e.failure?.map fun text => (name, text)
  if failed.isEmpty then .ok (endings.map (·.1)) else .error (.clusterFailures failed)

/-- The result of a run; none while a task is still running. -/
def Fleet.result? (f : Fleet) : Option (Except Error (List String)) := f.endings?.map summary

end MultiCluster.Gather
