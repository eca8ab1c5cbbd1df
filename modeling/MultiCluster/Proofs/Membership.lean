import MultiCluster.Proofs.SharedRecord
import MultiCluster.Proofs.Undisturbed

/-! Deployments and members that join, in any order. Deployments may run at the same time, be cut
short anywhere, and leave requests behind that the server carries out later. Once a member holds
blocks, the record changes only by further members that join. -/
namespace MultiCluster.Deploy

open Cluster
open Globalnet (Allocation Record)
open Globalnet.Record (Renewed Stamped Spares held? path)
open Program (Leads)
open Server (Exchange versionOf)

/-- A member joins: its blocks are added to the record, under a version that was never given. -/
structure Joins (ns : String) (a : Allocation) (s s' : Server) : Prop where
  added : ∃ r, held? ns s = some r ∧ held? ns s' = some { r with clusters := r.clusters ++ [a] }
  version : s.version < s'.version
  stamped : ∀ v, s'.objects.find? (path ns) = some v →
    versionOf v = some (Text.decimal s'.version)
  elsewhere : ∀ q, q ≠ path ns → s'.objects.find? q = s.objects.find? q

structure Scene where
  runs : List (Program (timed Calls) (Except Error Report))
  server : Server

namespace Scene

/-- What may happen next, with the members that join by it. A deployment that is cut short makes no
further requests; one of its requests may yet be carried out. -/
inductive Step : Scene → List (String × Allocation) → Scene → Prop
  | begins {runs : List (Program (timed Calls) (Except Error Report))} {s : Server}
      (options : Options) (cluster : String) (cancelled : Bool) :
      Step ⟨runs, s⟩ [] ⟨deployBroker options cluster clusterAppliers cancelled :: runs, s⟩
  | asks {runs runs' : List (Program (timed Calls) (Except Error Report))} {s s' : Server}
      {r : Timed Call} {next : (timed Calls).Answer r → Program (timed Calls) (Except Error Report)}
      {d : (timed Calls).Answer r} (came : unreliable Exchange r s d s') :
      Step ⟨runs ++ .ask r next :: runs', s⟩ [] ⟨runs ++ next d :: runs', s'⟩
  | lingers {runs : List (Program (timed Calls) (Except Error Report))} {s : Server}
      {r : Timed Call} {next : (timed Calls).Answer r → Program (timed Calls) (Except Error Report)}
      (waiting : .ask r next ∈ runs) :
      Step ⟨runs, s⟩ [] ⟨.ask (I := timed Calls) r (fun _ => .never) :: runs, s⟩
  | joins {runs : List (Program (timed Calls) (Except Error Report))} {s s' : Server}
      {ns : String} {a : Allocation} (joins : Joins ns a s s') :
      Step ⟨runs, s⟩ [(ns, a)] ⟨runs, s'⟩

inductive History : Scene → List (String × Allocation) → Scene → Prop
  | here {a : Scene} : History a [] a
  | step {a b c : Scene} {joined more : List (String × Allocation)} (earlier : History a joined b)
      (last : Step b more c) : History a (joined ++ more) c

variable {a b c : Scene} {joined more : List (String × Allocation)} {ns : String} {r : Record}

/-- The record's version is known to be the last one, and all deployments spare its members. -/
structure Orderly (ns : String) (a : Scene) : Prop where
  stamped : Stamped (path ns) a.server
  spare : ∀ run ∈ a.runs, run.Meets (unreliable Exchange) (Renewed (path ns)) (Spares ns)
    (fun _ _ => True) a.server

def joinedAt (ns : String) (joined : List (String × Allocation)) : List Allocation :=
  joined.filterMap fun j => if j.1 = ns then some j.2 else none

end Scene

theorem Joins.renewed {ns ns' : String} {a : Allocation} {s s' : Server} (joins : Joins ns a s s') :
    Renewed (path ns') s s' := by
  refine ⟨joins.version.le, ?_⟩
  by_cases here : path ns' = path ns
  · rw [here]
    cases found : s'.objects.find? (path ns) with
    | none =>
      obtain ⟨r, -, held⟩ := joins.added
      rw [held?, found] at held
      cases held
    | some v => exact .inr ⟨v, s'.version, rfl, joins.stamped v found, joins.version, le_rfl⟩
  · exact .inl (joins.elsewhere _ here)

namespace Scene

variable {a b c : Scene} {joined more : List (String × Allocation)} {ns : String} {r : Record}

/-- Deployments that wait while others move the server go on sparing the members. -/
theorem Orderly.moved {runs runs' : List (Program (timed Calls) (Except Error Report))}
    {s s' : Server} (orderly : Orderly ns ⟨runs, s⟩) (moved : Renewed (path ns) s s')
    (fewer : ∀ run ∈ runs', run ∈ runs) : Orderly ns ⟨runs', s'⟩ where
  stamped := orderly.stamped.renewed moved
  spare run member := (orderly.spare run (fewer run member)).of_rely (fun _ _ _ => .trans)
    (fun _ _ _ _ _ => trivial) moved

theorem Orderly.cons {runs : List (Program (timed Calls) (Except Error Report))} {s : Server}
    {run : Program (timed Calls) (Except Error Report)} (orderly : Orderly ns ⟨runs, s⟩)
    (spares : run.Meets (unreliable Exchange) (Renewed (path ns)) (Spares ns)
      (fun _ _ => True) s) : Orderly ns ⟨run :: runs, s⟩ where
  stamped := orderly.stamped
  spare := List.forall_mem_cons.mpr ⟨spares, orderly.spare⟩

/-- What happens next leaves the deployments to spare the members, and spares them itself unless a
member joins. -/
theorem Step.orderly (step : Step a joined b) (orderly : Orderly ns a) :
    Orderly ns b ∧ (joined = [] → Spares ns a.server b.server) := by
  cases step with
  | begins options cluster cancelled =>
    exact ⟨orderly.cons (spares_of_deployBroker orderly.stamped), fun _ => .refl⟩
  | @asks runs runs' s s' r next d came =>
    obtain ⟨spares, later⟩ := orderly.spare (.ask r next) (by simp) s .refl d s' came
    have others : Orderly ns ⟨runs ++ runs', s'⟩ :=
      orderly.moved spares.1 fun run member => by simp at member ⊢; tauto
    refine ⟨⟨others.stamped, fun run member => ?_⟩, fun _ => spares⟩
    rcases List.mem_append.mp member with before | this
    · exact others.spare run (List.mem_append_left _ before)
    · rcases List.mem_cons.mp this with rfl | after
      · exact later
      · exact others.spare run (List.mem_append_right _ after)
  | @lingers runs s r next waiting =>
    refine ⟨orderly.cons fun s₁ moved d s₂ came => ⟨?_, trivial⟩, fun _ => .refl⟩
    exact (orderly.spare _ waiting s₁ moved d s₂ came).1
  | joins joins => exact ⟨orderly.moved joins.renewed fun _ => id, by simp⟩

theorem Orderly.history (orderly : Orderly ns a) (history : History a joined b) : Orderly ns b := by
  induction history with
  | here => exact orderly
  | step earlier last ih => exact (last.orderly ih).1

theorem joinedAt_append :
    joinedAt ns (joined ++ more) = joinedAt ns joined ++ joinedAt ns more :=
  List.filterMap_append

def Extended (ns : String) (r : Record) (joined : List (String × Allocation)) (s s' : Server) :
    Prop :=
  held? ns s' = some { r with clusters := r.clusters ++ joinedAt ns joined } ∧
    (joinedAt ns joined = [] → s'.objects.find? (path ns) = s.objects.find? (path ns))

theorem extended_of_same {s s' : Server} (held : held? ns s = some r)
    (same : s'.objects.find? (path ns) = s.objects.find? (path ns))
    (nobody : joinedAt ns joined = []) : Extended ns r joined s s' := by
  refine ⟨?_, fun _ => same⟩
  rw [nobody, List.append_nil, held?, same]
  exact held

/-- What happens next to a record with members: further members, or nothing. -/
theorem Step.extended (step : Step a joined b) (orderly : Orderly ns a)
    (held : held? ns a.server = some r) (members : r.clusters ≠ []) :
    Extended ns r joined a.server b.server := by
  have spared (none : joined = []) :
      b.server.objects.find? (path ns) = a.server.objects.find? (path ns) :=
    ((step.orderly orderly).2 none).2.resolve_right fun free => members (free r held)
  cases step with
  | begins => exact extended_of_same held (spared rfl) rfl
  | asks => exact extended_of_same held (spared rfl) rfl
  | lingers => exact extended_of_same held (spared rfl) rfl
  | @joins runs s s' ns' allocation joins =>
    by_cases here : ns' = ns
    · subst here
      obtain ⟨r', before, after⟩ := joins.added
      obtain rfl := Option.some.inj (held.symm.trans before)
      exact ⟨by simpa [joinedAt] using after, by simp [joinedAt]⟩
    · have apart : path ns ≠ path ns' := fun same => here (namespace_of_path same).symm
      exact extended_of_same held (joins.elsewhere _ apart) (by simp [joinedAt, here])

end Scene

/-- Once a record has members, it changes only by further members that join: no deployment, whether
it succeeds, fails or is cut short, touches it, also if the members joined between its looking at the
record and its writing. -/
theorem record_of_history {start now later : Scene} {earlier joined : List (String × Allocation)}
    {ns : String} {r : Record} (idle : start.runs = []) (stamped : Stamped (path ns) start.server)
    (before : Scene.History start earlier now) (after : Scene.History now joined later)
    (held : held? ns now.server = some r) (members : r.clusters ≠ []) :
    held? ns later.server = some { r with clusters := r.clusters ++ Scene.joinedAt ns joined } ∧
      (Scene.joinedAt ns joined = [] →
        later.server.objects.find? (path ns) = now.server.objects.find? (path ns)) := by
  have orderly : Scene.Orderly ns now :=
    Scene.Orderly.history ⟨stamped, by simp [idle]⟩ before
  induction after with
  | here => exact ⟨by simpa [Scene.joinedAt] using held, fun _ => rfl⟩
  | step history last ih =>
    obtain ⟨kept, same⟩ := ih
    obtain ⟨kept', same'⟩ := last.extended (orderly.history history) kept (by simp [members])
    rw [Scene.joinedAt_append]
    refine ⟨by simpa using kept', fun nobody => ?_⟩
    obtain ⟨first, second⟩ := List.append_eq_nil_iff.mp nobody
    exact (same' second).trans (same first)

theorem Scene.History.of_leads {run run' : Program (timed Calls) (Except Error Report)}
    {s s' : Server} {start : Scene} {joined : List (String × Allocation)}
    (history : Scene.History start joined ⟨[run], s⟩)
    (leads : Leads (unreliable Exchange) run s run' s') :
    Scene.History start joined ⟨[run'], s'⟩ := by
  induction leads with
  | here => exact history
  | @answered r next a s s₁ s' run came later ih =>
    have asks : Scene.Step ⟨[] ++ .ask r next :: [], s⟩ [] ⟨[] ++ next a :: [], s₁⟩ := .asks came
    refine ih ?_
    rw [← List.append_nil joined]
    exact .step history asks

/-- Writing the record with a further member, which then reads as written, is a join. -/
theorem joins_write {ns : String} {a : Allocation} {s : Server} {r r' : Record}
    (held : held? ns s = some r)
    (added : held? ns (s.write (path ns) (r'.toConfigMap ns)).2 =
      some { r with clusters := r.clusters ++ [a] }) :
    Joins ns a s (s.write (path ns) (r'.toConfigMap ns)).2 where
  added := ⟨r, held, added⟩
  version := Nat.lt_succ_self _
  stamped w found := by
    rw [Server.find?_write_self] at found
    obtain rfl := Option.some.inj found
    exact Server.versionOf_withVersion (Kind.hasMetadata_object Record.further_data)
  elsewhere q other := Server.find?_write_of_ne other

def vacant : Server :=
  (pristine.write (path brokerNamespace)
    (Record.toConfigMap ⟨true, "242.0.0.0/8", 65536, []⟩ brokerNamespace)).2

def racing : Program (timed Calls) (Except Error Report) × Clock Server :=
  Program.advance (punctual Server.handler none fun _ => none) 42
    (deployBroker (.withGlobalnet "242.0.0.0/8" 4096) "east" clusterAppliers false) ⟨vacant, 0, .zero⟩

def overtaken : Server :=
  (racing.2.state.write (path brokerNamespace) (firstMember.toConfigMap brokerNamespace)).2

theorem leads_racing : Leads (unreliable Exchange) (deployBroker (.withGlobalnet "242.0.0.0/8" 4096)
    "east" clusterAppliers false) vacant racing.1 racing.2.state := by
  unfold racing
  exact Program.leads_advance Clock.state (fun c : Clock Server => c.state.faults = [])
    unreliable_of_quiet 42 (t := ⟨vacant, 0, .zero⟩) rfl

/-- The deployment fails, and the member keeps its blocks. -/
theorem record_of_overtaken : ∃ clock,
    racing.1.run (punctual Server.handler none fun _ => none) ⟨overtaken, 0, .zero⟩ =
        (some (.error (.stepFailure "globalnet" "east" (.conflict
          "ConfigMap/submariner-globalnet-info" ((path brokerNamespace).text ++
            " was modified")))), clock) ∧
      held? brokerNamespace clock.state = some firstMember ∧
      clock.state.objects.find? (path brokerNamespace) =
        overtaken.objects.find? (path brokerNamespace) := by
  obtain ⟨free, held, quiet, fails⟩ : held? brokerNamespace racing.2.state =
        some { firstMember with clusters := [] } ∧
      held? brokerNamespace overtaken = some firstMember ∧ overtaken.faults = [] ∧
      (racing.1.run (punctual Server.handler none fun _ => none) ⟨overtaken, 0, .zero⟩).1 =
        some (.error (.stepFailure "globalnet" "east" (.conflict
          "ConfigMap/submariner-globalnet-info" ((path brokerNamespace).text ++
            " was modified")))) := by
    decide +kernel
  rcases ran : racing.1.run (punctual Server.handler none fun _ => none) ⟨overtaken, 0, .zero⟩ with
    ⟨result, clock⟩
  rw [ran] at fails
  obtain rfl : result = _ := fails
  have stamped : Stamped (path brokerNamespace) vacant :=
    Stamped.renewed (s := pristine) (fun v found => by simp [pristine, Store.find?] at found)
      (Record.renewed_write (Kind.hasMetadata_object Record.further_data))
  have joins : Joins brokerNamespace ⟨"west", ["242.0.0.0/16"]⟩ racing.2.state overtaken := by
    unfold overtaken at held ⊢
    exact joins_write free held
  have rest := leads_of_punctual (c := ⟨overtaken, 0, .zero⟩) quiet ran
  have begun : Scene.History ⟨[], vacant⟩ [] ⟨[racing.1], racing.2.state⟩ :=
    .of_leads (.step .here (.begins _ _ _)) leads_racing
  obtain ⟨kept, same⟩ := record_of_history rfl stamped (.step begun (.joins joins))
    (.of_leads .here rest) held (by decide)
  exact ⟨clock, rfl, by simpa [Scene.joinedAt] using kept, same rfl⟩

end MultiCluster.Deploy
