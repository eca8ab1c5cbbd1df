import MultiCluster.CommandLine.Run
import MultiCluster.Kubeconfig.Reading
import MultiCluster.Proofs.Contexts
import MultiCluster.Proofs.Overrides
import MultiCluster.Proofs.Results
import MultiCluster.Proofs.Settled
import MultiCluster.Proofs.Starting

/-! Rejected command lines. What is wrong with the input is found before a cluster is asked for
anything, and nothing that happens later is taken for it. -/
namespace MultiCluster

abbrev Rejecting {α : Type} (result : Except Error α) : Prop :=
  FailsOnly (fun e => e.isInvalidConfiguration = true) result

theorem rejecting_of_invalid {α : Type} {result : Except Error α}
    (invalid : ∀ e, result = .error e → ∃ m, e = .invalidConfiguration m) : Rejecting result := by
  intro e failed
  obtain ⟨m, rfl⟩ := invalid e failed
  rfl

theorem rejecting_mapError {α : Type} {result : Except String α} {say : String → Error}
    (invalid : ∀ text, (say text).isInvalidConfiguration = true) :
    Rejecting (result.mapError say) := by
  cases result with
  | ok a => exact failsOnly_ok
  | error text => exact failsOnly_error (invalid text)

namespace Image

variable {table table' : Text.Table} {entries : List String}

def Override (entry : String) : Prop :=
  ∃ name ∈ known, ∃ image, image ≠ "" ∧ entry = name ++ "=" ++ image

theorem overrides_of_parse (parsed : overridesFrom table entries = .ok table') :
    ∀ entry ∈ entries, Override entry := by
  intro entry member
  obtain ⟨name, image, assigns⟩ := exists_overridesFrom_iff.mp ⟨table', parsed⟩ entry member
  exact ⟨name, assigns.named, image, assigns.given, assigns.text⟩

end Image

namespace Kubeconfig

variable {k : Kubeconfig} {requested names : List String} {name : String}

theorem rejecting_load {l : Library} {files : Files.Tree} {vars : Text.Table}
    {home given : Option String} : Rejecting (l.load files vars home given) := by
  unfold Library.load
  split
  · exact rejecting_mapError fun _ => rfl
  · exact rejecting_mapError fun _ => rfl

theorem rejecting_select : Rejecting (k.select requested) := by
  unfold select
  simp only
  split
  · split
    · exact failsOnly_ok
    · exact failsOnly_error rfl
  · split
    · exact failsOnly_ok
    · exact failsOnly_error rfl

/-- All contexts that are requested are there, and all of them are chosen. -/
theorem mem_of_select (chosen : k.select requested = .ok names) (member : name ∈ requested) :
    name ∈ names ∧ ∃ c ∈ k.contexts, c.name = name := by
  obtain ⟨known, once⟩ := (select_ok_iff (List.ne_nil_of_mem member)).mp chosen
  exact ⟨(once.same name).mpr member, known name member⟩

end Kubeconfig

namespace CommandLine

open Cluster (Call)
open Gateway (GatewayAction Platform)

variable {env : Environment} {c : Choice} {i : Invocation} {j : Job} {r : DeployRequest}
  {g : GatherRequest} {o : Deploy.Options} {targets : List Target} {command : String}

/-! ### Checking the input -/

theorem rejecting_deployOptions : Rejecting r.options := by
  refine failsOnly_bind (rejecting_of_invalid fun e => Component.invalid_of_validate) fun _ =>
    failsOnly_bind (rejecting_of_invalid fun e refused => ?_) fun _ =>
      failsOnly_bind (rejecting_of_invalid fun e => Image.invalid_of_overridesFrom)
        fun _ => failsOnly_ok
  exact Globalnet.invalid_of_settle (Prod.ext refused rfl :
    Globalnet.settle ⟨r.components, r.globalnet, r.range, r.clusterSize⟩ = (.error e, _))

theorem rejecting_gatherOptions {now : Calendar.Instant} : Rejecting (g.options now) := by
  refine failsOnly_bind (rejecting_of_invalid fun e refused => ?_) fun _ => failsOnly_ok
  rcases Gather.validate_cases with ⟨-, valid⟩ | ⟨-, text, invalid⟩
  · rw [valid] at refused
    cases refused
  · rw [invalid] at refused
    exact ⟨text, (Except.error.inj refused).symm⟩

theorem rejecting_action {a : GatewayAction} : Rejecting a.validate := by
  unfold GatewayAction.validate
  split
  · split
    · exact failsOnly_error rfl
    · exact failsOnly_ok
  · exact failsOnly_ok

theorem failsOnly_liftError {α : Type} {result : Except Error α} {P : Error → Prop}
    {Q : Failure → Prop} (only : FailsOnly P result) (lifted : ∀ e, P e → Q (.operation e)) :
    FailsOnly Q (liftError result) := by
  cases result with
  | ok a => exact failsOnly_ok
  | error e => exact failsOnly_error (lifted e (only e rfl))

theorem liftError_ok_iff {α : Type} {result : Except Error α} {a : α} :
    liftError result = .ok a ↔ result = .ok a := by
  cases result with
  | ok b => simp [liftError]
  | error e => simp [liftError]

theorem job_deployBroker_iff : Invocation.job env ⟨c, .deployBroker r⟩ = .ok j ↔
    ∃ o, r.options = .ok o ∧ ∃ target, c.target env deployName = .ok target ∧
      Job.deployBroker o target = j := by
  simp only [Invocation.job, bind_ok_iff, liftError_ok_iff, pure, Except.pure, Except.ok.injEq]

theorem job_gather_iff : Invocation.job env ⟨c, .gather g⟩ = .ok j ↔
    ∃ o, g.options env.now = .ok o ∧ ∃ targets, c.targets env = .ok targets ∧
      Job.gather o targets = j := by
  simp only [Invocation.job, bind_ok_iff, liftError_ok_iff, pure, Except.pure, Except.ok.injEq]

theorem job_cloud_iff {p : Platform} {a : GatewayAction} :
    Invocation.job env ⟨c, .cloud p a⟩ = .ok j ↔
      ∃ u, a.validate = .ok u ∧ ∃ target, c.target env cloudName = .ok target ∧
        Job.cloud p a env.searchPath target = j := by
  simp only [Invocation.job, bind_ok_iff, liftError_ok_iff, pure, Except.pure, Except.ok.injEq]

theorem checked_of_options (accepted : r.options = .ok o) :
    Component.validate r.components = .ok () ∧
    (Globalnet.settle ⟨r.components, r.globalnet, r.range, r.clusterSize⟩).1 = .ok () ∧
    (∃ overrides, Image.parseOverrides r.imageOverrides = .ok overrides) ∧
    o.broker = ⟨r.components, r.globalnet, r.range, r.clusterSize⟩ := by
  obtain ⟨_, components, later⟩ := bind_ok_iff.mp accepted
  obtain ⟨_, settled, later⟩ := bind_ok_iff.mp later
  obtain ⟨overrides, parsed, made⟩ := bind_ok_iff.mp later
  obtain rfl := Except.ok.inj made
  exact ⟨components, settled, ⟨overrides, parsed⟩, rfl⟩

/-- Options that have been accepted make a plan. -/
theorem plan_of_options (accepted : r.options = .ok o) : ∃ p, Deploy.plan o = .ok p := by
  obtain ⟨components, settled, -, same⟩ := checked_of_options accepted
  refine ⟨_, Deploy.plan_ok_iff.mpr ⟨?_, _, Prod.ext ?_ rfl, rfl⟩⟩
  · rw [same]
    exact components
  · rw [same]
    exact settled

def Chosen (env : Environment) (c : Choice) (names : List String) : Prop :=
  ∃ k, env.kubeconfigs.load env.files env.vars env.home (c.location? env) = .ok k ∧
    k.config.select c.contexts = .ok names

theorem chosen_of_targets (listed : c.targets env = .ok targets) :
    Chosen env c (targets.map Target.name) := by
  obtain ⟨k, loaded, later⟩ := bind_ok_iff.mp listed
  obtain ⟨names, chosen, connected⟩ := bind_ok_iff.mp later
  refine ⟨k, loaded, chosen.trans (congrArg Except.ok ?_)⟩
  clear chosen later listed
  induction names generalizing targets with
  | nil =>
    obtain rfl := Except.ok.inj connected
    rfl
  | cons name rest ih =>
    rw [List.mapM_cons] at connected
    obtain ⟨target, here, further⟩ := bind_ok_iff.mp connected
    obtain ⟨others, there, whole⟩ := bind_ok_iff.mp further
    obtain ⟨connection, -, same⟩ := bind_ok_iff.mp here
    obtain rfl := Except.ok.inj whole
    obtain rfl := Except.ok.inj same
    rw [List.map_cons, ← ih there]

/-- Looking contexts up rejects them, or they are there and a client cannot be made. -/
theorem failsOnly_targets : FailsOnly
    (fun e => e.isInvalidConfiguration = true ∨ ∃ names, Chosen env c names) (c.targets env) :=
  failsOnly_bind_of_ok (Kubeconfig.rejecting_load.mono fun _ => .inl) fun k loaded =>
    failsOnly_bind_of_ok (Kubeconfig.rejecting_select.mono fun _ => .inl) fun names chosen =>
      fun _ _ => .inr ⟨names, k, loaded, chosen⟩

theorem ensureSingle_cases : (c.contexts.length ≤ 1 ∧ c.ensureSingle command = .ok ()) ∨
    ∃ text, c.ensureSingle command = .error (.validation text) := by
  unfold Choice.ensureSingle
  split
  · exact .inr ⟨_, rfl⟩
  · next few => exact .inl ⟨Nat.not_lt.mp few, rfl⟩

theorem failsOnly_target : FailsOnly (fun f => f.isInvalidConfiguration = true ∨
    c.contexts.length ≤ 1 ∧ ∃ names, Chosen env c names) (c.target env command) := by
  unfold Choice.target
  rcases @ensureSingle_cases c command with ⟨few, single⟩ | ⟨text, several⟩
  · rw [single]
    refine failsOnly_bind failsOnly_ok fun _ =>
      failsOnly_bind (failsOnly_liftError failsOnly_targets fun e failed => ?_) fun targets => ?_
    · exact failed.imp id fun chosen => ⟨few, chosen⟩
    · split
      · exact failsOnly_ok
      · exact failsOnly_error (.inl rfl)
  · rw [several]
    exact failsOnly_error (.inl rfl)

theorem checked_of_target {target : Target} (found : c.target env command = .ok target) :
    c.contexts.length ≤ 1 ∧ ∃ names, Chosen env c names := by
  unfold Choice.target at found
  obtain ⟨_, single, later⟩ := bind_ok_iff.mp found
  obtain ⟨targets, listed, -⟩ := bind_ok_iff.mp later
  refine ⟨?_, _, chosen_of_targets (liftError_ok_iff.mp listed)⟩
  rcases @ensureSingle_cases c command with ⟨few, -⟩ | ⟨text, several⟩
  · exact few
  · rw [several] at single
    cases single

/-- What is known of a command line once clients are made for its clusters. -/
inductive Checked (env : Environment) : Invocation → Prop where
  | deployBroker {c : Choice} {r : DeployRequest} {o : Deploy.Options} {names : List String}
      (accepted : r.options = .ok o) (few : c.contexts.length ≤ 1) (chosen : Chosen env c names) :
      Checked env ⟨c, .deployBroker r⟩
  | gather {c : Choice} {g : GatherRequest} {o : Gather.Options} {names : List String}
      (accepted : g.options env.now = .ok o) (chosen : Chosen env c names) :
      Checked env ⟨c, .gather g⟩
  | cloud {c : Choice} {p : Platform} {a : GatewayAction} {names : List String}
      (accepted : a.validate = .ok ()) (few : c.contexts.length ≤ 1)
      (chosen : Chosen env c names) : Checked env ⟨c, .cloud p a⟩

theorem checked_of_job (made : i.job env = .ok j) : Checked env i := by
  obtain ⟨choice, command⟩ := i
  cases command with
  | deployBroker r =>
    obtain ⟨_, accepted, target, found, -⟩ := job_deployBroker_iff.mp made
    obtain ⟨few, names, chosen⟩ := checked_of_target found
    exact .deployBroker accepted few chosen
  | gather g =>
    obtain ⟨_, accepted, targets, listed, -⟩ := job_gather_iff.mp made
    exact .gather accepted (chosen_of_targets listed)
  | cloud p a =>
    obtain ⟨_, accepted, target, found, -⟩ := job_cloud_iff.mp made
    obtain ⟨few, names, chosen⟩ := checked_of_target found
    exact .cloud accepted few chosen

/-- Without a job the command line is rejected, or it has been checked and a client is missing. -/
theorem failsOnly_job :
    FailsOnly (fun f => f.isInvalidConfiguration = true ∨ Checked env i) (i.job env) := by
  obtain ⟨choice, command⟩ := i
  cases command with
  | deployBroker r =>
    refine failsOnly_bind_of_ok (failsOnly_liftError rejecting_deployOptions fun _ => .inl)
      fun o accepted => failsOnly_bind (failsOnly_target.mono ?_) fun _ => failsOnly_ok
    rintro f (invalid | ⟨few, names, chosen⟩)
    · exact .inl invalid
    · exact .inr (.deployBroker (liftError_ok_iff.mp accepted) few chosen)
  | gather g =>
    refine failsOnly_bind_of_ok (failsOnly_liftError rejecting_gatherOptions fun _ => .inl)
      fun o accepted => failsOnly_bind (failsOnly_liftError failsOnly_targets ?_) fun _ =>
        failsOnly_ok
    rintro e (invalid | ⟨names, chosen⟩)
    · exact .inl invalid
    · exact .inr (.gather (liftError_ok_iff.mp accepted) chosen)
  | cloud p a =>
    refine failsOnly_bind_of_ok (failsOnly_liftError rejecting_action fun _ => .inl)
      fun u accepted => failsOnly_bind (failsOnly_target.mono ?_) fun _ => failsOnly_ok
    rintro f (invalid | ⟨few, names, chosen⟩)
    · exact .inl invalid
    · exact .inr (.cloud (liftError_ok_iff.mp accepted) few chosen)

/-! ### Input that is wrong -/

/-- Command lines with something wrong in them, as far as it can be told without a cluster. -/
inductive Flawed (env : Environment) : Invocation → Prop where
  | noComponents {choice : Choice} {r : DeployRequest} (none : r.components = []) :
      Flawed env ⟨choice, .deployBroker r⟩
  | unknownComponent {choice : Choice} {r : DeployRequest} {name : String}
      (asked : name ∈ r.components) (unknown : name ∉ Component.requestable) :
      Flawed env ⟨choice, .deployBroker r⟩
  | globalnet {choice : Choice} {r : DeployRequest} (on : r.globalnet = true)
      (unfit : ¬∃ block size,
        Globalnet.Accepts ⟨r.components, true, r.range, r.clusterSize⟩ block size) :
      Flawed env ⟨choice, .deployBroker r⟩
  | override {choice : Choice} {r : DeployRequest} {entry : String}
      (given : entry ∈ r.imageOverrides) (malformed : ¬Image.Override entry) :
      Flawed env ⟨choice, .deployBroker r⟩
  | unknownType {choice : Choice} {g : GatherRequest} {name : String} (asked : name ∈ g.types)
      (unknown : Text.trim name ∉ Gather.allTypes) : Flawed env ⟨choice, .gather g⟩
  | unknownModule {choice : Choice} {g : GatherRequest} {name : String} (asked : name ∈ g.modules)
      (unknown : Text.trim name ∉ Gather.allModules) : Flawed env ⟨choice, .gather g⟩
  | noGateway {choice : Choice} {p : Platform} : Flawed env ⟨choice, .cloud p (.prepare 0)⟩
  | unknownContext {i : Invocation} (unknown : ∀ k,
      env.kubeconfigs.load env.files env.vars env.home (i.clusters.location? env) = .ok k →
        ∃ name ∈ i.clusters.contexts, ∀ context ∈ k.config.contexts, context.name ≠ name) :
      Flawed env i
  /-- Two clusters would be gathered into one directory. They have their clients by then. -/
  | sharedDirectory {choice : Choice} {g : GatherRequest} {targets : List Target}
      {name other : String} (connected : choice.targets env = .ok targets)
      (asked : name ∈ choice.contexts) (besides : other ∈ choice.contexts)
      (different : name ≠ other) (shared : Gather.fileName name = Gather.fileName other) :
      Flawed env ⟨choice, .gather g⟩
  | severalContexts {i : Invocation} (single : ∀ g, i.command ≠ .gather g)
      (several : 1 < i.clusters.contexts.length) : Flawed env i

theorem known_of_validate {o : Gather.Options} (valid : o.validate = .ok ()) : o.Known := by
  rcases @Gather.validate_cases o with ⟨known, -⟩ | ⟨-, text, invalid⟩
  · exact known
  · rw [invalid] at valid
    cases valid

theorem mem_select {name : String} {requested all : List String} (asked : name ∈ requested) :
    Text.trim name ∈ Gather.Options.select requested all := by
  have some : requested.isEmpty = false := by simpa using List.ne_nil_of_mem asked
  simp only [Gather.Options.select, some, Bool.false_eq_true, if_false, Text.mem_ordered]
  exact List.mem_map_of_mem asked

theorem known_of_options {now : Calendar.Instant} {o : Gather.Options}
    (accepted : g.options now = .ok o) :
    (∀ name ∈ g.types, Text.trim name ∈ Gather.allTypes) ∧
      ∀ name ∈ g.modules, Text.trim name ∈ Gather.allModules := by
  obtain ⟨_, valid, -⟩ := bind_ok_iff.mp accepted
  have known := known_of_validate valid
  exact ⟨fun name asked => known.1 _ (mem_select asked),
    fun name asked => known.2 _ (mem_select asked)⟩

theorem not_apart {clusters : List String} {name other : String} (asked : name ∈ clusters)
    (besides : other ∈ clusters) (different : name ≠ other)
    (shared : Gather.fileName name = Gather.fileName other) : ¬Gather.Apart clusters :=
  fun apart => different (List.inj_on_of_nodup_map apart asked besides shared)

/-- A flawed command line does not pass the checks, but for one that cannot be started. -/
theorem Flawed.unchecked (flawed : Flawed env i) : ¬Checked env i ∨
    ∃ choice g targets, i = ⟨choice, .gather g⟩ ∧ choice.targets env = .ok targets ∧
      ¬Gather.Apart (targets.map Target.name) := by
  cases flawed with
  | noComponents none =>
    refine .inl fun | .deployBroker accepted _ _ => ?_
    exact (Component.validate_ok_iff.mp (checked_of_options accepted).1).1 none
  | unknownComponent asked unknown =>
    refine .inl fun | .deployBroker accepted _ _ => ?_
    exact unknown ((Component.validate_ok_iff.mp (checked_of_options accepted).1).2 _ asked)
  | globalnet on unfit =>
    refine .inl fun | .deployBroker accepted _ _ => ?_
    have settled := (checked_of_options accepted).2.1
    rw [on] at settled
    exact unfit ((Globalnet.settle_ok_iff_accepts rfl).mp settled)
  | override given malformed =>
    refine .inl fun | .deployBroker accepted _ _ => ?_
    obtain ⟨-, -, ⟨overrides, parsed⟩, -⟩ := checked_of_options accepted
    exact malformed (Image.overrides_of_parse parsed _ given)
  | unknownType asked unknown =>
    exact .inl fun | .gather accepted _ => unknown ((known_of_options accepted).1 _ asked)
  | unknownModule asked unknown =>
    exact .inl fun | .gather accepted _ => unknown ((known_of_options accepted).2 _ asked)
  | noGateway => exact .inl fun | .cloud accepted _ _ => nomatch accepted
  | unknownContext unknown =>
    refine .inl fun checked => ?_
    obtain ⟨names, k, loaded, chosen⟩ : ∃ names, Chosen env i.clusters names := by
      cases checked with
      | deployBroker _ _ chosen => exact ⟨_, chosen⟩
      | gather _ chosen => exact ⟨_, chosen⟩
      | cloud _ _ chosen => exact ⟨_, chosen⟩
    obtain ⟨name, asked, absent⟩ := unknown k loaded
    obtain ⟨-, context, there, same⟩ := Kubeconfig.mem_of_select chosen asked
    exact absent context there same
  | @sharedDirectory choice g targets _ _ connected asked besides different shared =>
    refine .inr ⟨choice, g, targets, rfl, connected, ?_⟩
    obtain ⟨k, -, chosen⟩ := chosen_of_targets connected
    exact not_apart (Kubeconfig.mem_of_select chosen asked).1
      (Kubeconfig.mem_of_select chosen besides).1 different shared
  | severalContexts single several =>
    refine .inl fun checked => ?_
    cases checked with
    | deployBroker _ few _ => exact Nat.not_le.mpr several few
    | gather _ _ => exact single _ rfl
    | cloud _ few _ => exact Nat.not_le.mpr several few

/-! ### Running what is left -/

section Running

variable {σ : Type} {h : Answering σ} {s s' : Scene σ} {cluster : String} {f : Failure}

theorem runDeployment_accepted {p : Deploy.Plan} (planned : Deploy.plan o = .ok p)
    (ended : runDeployment h o cluster s = (some (.error f), s')) :
    f.isInvalidConfiguration = false := by
  unfold runDeployment at ended
  split at ended
  · cases ended
  · next e s₁ ran =>
    obtain ⟨same, -⟩ := Prod.mk.inj ended
    obtain rfl := Except.error.inj (Option.some.inj same)
    exact (Deploy.yields_deployBroker planned).of_run ran e rfl
  · cases ended

/-- A gathering is rejected before it begins, if at all. -/
theorem clusters_of_runGathering {o : Gather.Options} {clusters : List String}
    (ended : runGathering h o clusters s = (some (.error f), s'))
    (invalid : f.isInvalidConfiguration = true) : s'.clusters = s.clusters := by
  unfold runGathering at ended
  split at ended
  · obtain ⟨-, rfl⟩ := Prod.mk.inj ended
    rfl
  · simp only at ended
    split at ended
    · cases ended
    · next e result =>
      obtain ⟨same, -⟩ := Prod.mk.inj ended
      obtain rfl := Except.error.inj (Option.some.inj same)
      obtain ⟨endings, -, summed⟩ := Option.map_eq_some_iff.mp result
      simp only [Gather.summary] at summed
      split at summed
      · cases summed
      · obtain rfl := Except.error.inj summed
        cases invalid
    · cases ended

theorem gateways_keeps {clusters : σ} (r : (Deploy.timed Gateway.Site).Request) (s : Scene σ)
    (uncalled : ¬Deploy.AsksFor Gateway.IsCall r) (same : s.clusters = clusters) :
    (Scene.gateways h cluster r s).2.clusters = clusters := by
  cases r with
  | work r =>
    cases r with
    | inl call => exact absurd trivial uncalled
    | inr e => exact same
  | report e => exact same

/-- Settings of a platform are rejected before its cluster is called. -/
theorem clusters_of_runCloud {yaml : Yaml.Reader} {p : Platform} {a : GatewayAction}
    {searchPath : List String}
    (ended : runCloud h yaml p a searchPath cluster s = (some (.error f), s'))
    (invalid : f.isInvalidConfiguration = true) : s'.clusters = s.clusters := by
  unfold runCloud at ended
  simp only at ended
  split at ended
  · obtain ⟨-, rfl⟩ := Prod.mk.inj ended
    rfl
  · split at ended
    · cases ended
    · cases ended
    · next e cancelled s₁ ran =>
      obtain ⟨same, rfl⟩ := Prod.mk.inj ended
      obtain rfl := Except.error.inj (Option.some.inj same)
      rcases (Deploy.yieldsAfter_bounded Gateway.yieldsAfter_runOn).of_run gateways_keeps rfl ran
        with
        accepted | kept
      · exact absurd invalid (Bool.eq_false_iff.mp (accepted _ rfl e rfl))
      · exact kept
    · obtain ⟨same, -⟩ := Prod.mk.inj ended
      obtain rfl := Except.error.inj (Option.some.inj same)
      cases invalid
    · obtain ⟨same, -⟩ := Prod.mk.inj ended
      obtain rfl := Except.error.inj (Option.some.inj same)
      cases invalid

/-- Whoever rejects a command line has not called a cluster. -/
theorem clusters_of_run {cancelled : Bool} {clusters : σ}
    (ended : i.run h env cancelled clusters = (some (.error f), s))
    (invalid : f.isInvalidConfiguration = true) : s.clusters = clusters := by
  unfold Invocation.run at ended
  simp only at ended
  split at ended
  · obtain ⟨-, rfl⟩ := Prod.mk.inj ended
    rfl
  · next j made =>
    obtain ⟨choice, command⟩ := i
    cases command with
    | deployBroker r =>
      obtain ⟨o, accepted, target, -, rfl⟩ := job_deployBroker_iff.mp made
      obtain ⟨p, planned⟩ := plan_of_options accepted
      exact absurd invalid (Bool.eq_false_iff.mp (runDeployment_accepted planned ended))
    | gather g =>
      obtain ⟨o, -, targets, -, rfl⟩ := job_gather_iff.mp made
      exact clusters_of_runGathering ended invalid
    | cloud p a =>
      obtain ⟨_, -, target, -, rfl⟩ := job_cloud_iff.mp made
      exact clusters_of_runCloud ended invalid

theorem run_of_flawed {cancelled : Bool} {clusters : σ} (flawed : Flawed env i) :
    ∃ f s, i.run h env cancelled clusters = (some (.error f), s) ∧
      f.isInvalidConfiguration = true := by
  unfold Invocation.run
  rcases flawed.unchecked with unchecked | ⟨choice, g, targets, rfl, connected, unlike⟩
  · cases made : i.job env with
    | error f => exact ⟨f, _, rfl, (failsOnly_job f made).resolve_right unchecked⟩
    | ok j => exact absurd (checked_of_job made) unchecked
  · -- The clients are there, so it is the options that are wrong, or the names of the directories.
    cases accepted : g.options env.now with
    | error e =>
      have made : Invocation.job env ⟨choice, .gather g⟩ = .error (.operation e) := by
        simp only [Invocation.job, accepted]
        rfl
      rw [made]
      exact ⟨_, _, rfl, rejecting_gatherOptions e accepted⟩
    | ok o =>
      have made : Invocation.job env ⟨choice, .gather g⟩ = .ok (.gather o targets) :=
        job_gather_iff.mpr ⟨o, accepted, targets, connected, rfl⟩
      rcases @Gather.start_cases o (targets.map Target.name) with
        ⟨-, apart, -⟩ | ⟨-, text, refused⟩
      · exact absurd apart unlike
      · rw [made]
        refine ⟨.operation (.invalidConfiguration text), ⟨clusters, env.files, [], cancelled⟩, ?_,
          rfl⟩
        simp only [Job.run, runGathering, refused]

def recording (h : Answering σ) : Answering (σ × List (String × Call)) := fun cluster call s =>
  ((h cluster call s.1).1, (h cluster call s.1).2, s.2 ++ [(cluster, call)])

theorem exitCode_eq_two_iff : f.exitCode = 2 ↔ f.isInvalidConfiguration = true := by
  unfold Failure.exitCode
  split
  · next invalid => simp [invalid]
  · next valid => simp [valid]

/-- An exit code of two means that no cluster has been called, and what is wrong with the input
always ends with it. Options that are accepted are never rejected later. -/
theorem rejected_before_contact (h : Answering σ) (env : Environment) (i : Invocation)
    (cancelled : Bool) (clusters : σ) :
    (∀ f s, i.run (recording h) env cancelled (clusters, []) = (some (.error f), s) →
      f.exitCode = 2 → s.clusters.2 = []) ∧
    (Flawed env i → ∃ f s,
      i.run (recording h) env cancelled (clusters, []) = (some (.error f), s) ∧ f.exitCode = 2) ∧
    ∀ (r : DeployRequest) (o : Deploy.Options), r.options = .ok o →
      ∀ cluster (s s' : Scene σ) f, runDeployment h o cluster s = (some (.error f), s') →
        f.exitCode ≠ 2 := by
  refine ⟨fun f s ended code => ?_, fun flawed => ?_, fun r o accepted cluster s s' f ended => ?_⟩
  · rw [clusters_of_run ended (exitCode_eq_two_iff.mp code)]
  · obtain ⟨f, s, ended, invalid⟩ := run_of_flawed flawed
    exact ⟨f, s, ended, exitCode_eq_two_iff.mpr invalid⟩
  · obtain ⟨p, planned⟩ := plan_of_options accepted
    rw [Ne, exitCode_eq_two_iff, runDeployment_accepted planned ended]
    decide

def oneContext : String := "current-context: east
clusters:
- name: east
  cluster:
    server: https://127.0.0.1:6443
contexts:
- name: east
  context:
    cluster: east
"

def furnished : Environment :=
  ⟨[("KUBECONFIG", "config")], none, "/", ⟨[(["config"], .file (some oneContext))], []⟩,
    ⟨⟨2024, 1, 1⟩, 0, 0, 0⟩, Yaml.documents?, Kubeconfig.plain⟩

def outOfReach : Answering Unit
  | _, .send _, s => (.arrived none false (.broken "no route"), s)
  | _, .pause _, s => (.arrived none false (), s)

def deployment (components : List String) : DeployRequest :=
  ⟨components, false, Globalnet.defaultRange, 0, "", "", [], false, "brokers", none⟩

def deploymentOptions : Deploy.Options :=
  ⟨false, "", "", [], "brokers", ⟨[Component.connectivity], false, Globalnet.defaultRange, 0⟩, none⟩

theorem contexts_furnished {k : Kubeconfig.Loaded}
    (loaded : furnished.kubeconfigs.load furnished.files furnished.vars furnished.home none =
      .ok k) :
    k.config.contexts.map Kubeconfig.Context.name = ["east"] := by
  have read : (furnished.kubeconfigs.load furnished.files furnished.vars furnished.home none).map
      (fun k => k.config.contexts.map Kubeconfig.Context.name) = .ok ["east"] := by decide +kernel
  rw [loaded] at read
  exact Except.ok.inj read

theorem job_furnished : Invocation.job furnished
    ⟨⟨none, []⟩, .deployBroker (deployment [Component.connectivity])⟩ =
      .ok (.deployBroker deploymentOptions
        ⟨"east", ⟨some "https", some "127.0.0.1", some 6443⟩, "default"⟩) :=
  job_deployBroker_iff.mpr ⟨_, by decide +kernel, _, by decide +kernel, rfl⟩

/-- A context that the kubeconfig does not have, a context too many, a component that is none and
no gateway at all are rejected without a call. What is accepted is not rejected once the cluster
has been called in vain. -/
theorem rejected_before_contact_furnished :
    (∀ i ∈ [(⟨⟨none, ["north"]⟩, .gather ⟨[], [], none, false⟩⟩ : Invocation),
        ⟨⟨none, ["east", "west"]⟩, .cloud .generic .cleanup⟩,
        ⟨⟨none, []⟩, .deployBroker (deployment ["gateway"])⟩,
        ⟨⟨none, []⟩, .cloud .generic (.prepare 0)⟩], ∃ f s,
      i.run (recording outOfReach) furnished false ((), []) = (some (.error f), s) ∧
        f.exitCode = 2 ∧ s.clusters.2 = []) ∧
    ∃ f s, Invocation.run (recording outOfReach) furnished
        ⟨⟨none, []⟩, .deployBroker (deployment [Component.connectivity])⟩ false ((), []) =
      (some (.error f), s) ∧ f.exitCode ≠ 2 ∧ s.clusters.2 ≠ [] := by
  refine ⟨fun i member => ?_, ?_⟩
  · have flawed : Flawed furnished i := by
      simp only [List.mem_cons, List.not_mem_nil, or_false] at member
      rcases member with rfl | rfl | rfl | rfl
      · refine .unknownContext fun k loaded => ⟨"north", List.mem_cons_self, ?_⟩
        intro context there same
        have known := List.mem_map_of_mem (f := Kubeconfig.Context.name) there
        rw [contexts_furnished loaded, same] at known
        exact absurd known (by decide)
      · exact .severalContexts nofun (by decide)
      · exact .unknownComponent List.mem_cons_self (by decide)
      · exact .noGateway
    have rejected := rejected_before_contact outOfReach furnished i false ()
    obtain ⟨f, s, ended, code⟩ := rejected.2.1 flawed
    exact ⟨f, s, ended, code, rejected.1 f s ended code⟩
  · have rejected := rejected_before_contact (recording outOfReach) furnished
      ⟨⟨none, []⟩, .deployBroker (deployment [Component.connectivity])⟩ false ((), [])
    have failed : (runDeployment (recording outOfReach) deploymentOptions "east"
        ⟨((), []), furnished.files, [], false⟩).1.map (fun r => r.toOption.isNone) =
          some true := by decide +kernel
    have called : (runDeployment (recording outOfReach) deploymentOptions "east"
        ⟨((), []), furnished.files, [], false⟩).2.clusters.2.length ≠ 0 := by decide +kernel
    rw [Invocation.run, job_furnished]
    simp only [Job.run]
    generalize ended : runDeployment (recording outOfReach) deploymentOptions "east"
      ⟨((), []), furnished.files, [], false⟩ = run at failed called
    obtain ⟨result, s⟩ := run
    rcases result with _ | f | _
    · cases failed
    · have accepted : (deployment [Component.connectivity]).options = .ok deploymentOptions := by
        decide +kernel
      exact ⟨f, s, rfl, rejected.2.2 _ _ accepted _ _ _ f ended,
        fun none => called (congrArg List.length none)⟩
    · cases failed

end Running

end CommandLine

end MultiCluster
