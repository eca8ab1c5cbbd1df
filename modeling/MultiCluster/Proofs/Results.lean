import MultiCluster.Deploy.OnCluster
import MultiCluster.Gateway.Action
import MultiCluster.Proofs.BrokerObject
import MultiCluster.Proofs.Causes
import MultiCluster.Proofs.Operator
import MultiCluster.Proofs.StoredRecord

/-! What programs come to, whatever they are answered. Work on a cluster may fail in many ways, but
it never finds fault with the configuration: that has been done before. -/
namespace MultiCluster

namespace Program

variable {I J : Interface} {α β ε σ : Type} {C : I.Request → Prop} {P Q : α → Prop}

def Yields (P : α → Prop) : Program I α → Prop
  | .done a => P a
  | .never => True
  | .ask _ next => ∀ a, Yields P (next a)

theorem Yields.imp {p : Program I α} (yields : p.Yields P) (weaker : ∀ a, P a → Q a) :
    p.Yields Q := by
  induction p with
  | done a => exact weaker a yields
  | never => trivial
  | ask r next ih => exact fun a => ih a (yields a)

theorem Yields.bind {P : β → Prop} {p : Program I α} {f : α → Program I β}
    (first : p.Yields fun a => (f a).Yields P) : (p.bind f).Yields P := by
  induction p with
  | done a => exact first
  | never => trivial
  | ask r next ih => exact fun a => ih a (first a)

theorem yields_true {p : Program I α} : p.Yields fun _ => True := by
  induction p with
  | done a => trivial
  | never => trivial
  | ask r next ih => exact ih

theorem yields_substitute {f : (r : I.Request) → Program J (I.Answer r)} {p : Program I α}
    (yields : p.Yields P) : (p.substitute f).Yields P := by
  induction p with
  | done a => exact yields
  | never => trivial
  | ask r next ih => exact Yields.bind (yields_true.imp fun a _ => ih a (yields a))

theorem Yields.of_run {h : Handler I σ} {p : Program I α} {a : α} {s s' : σ}
    (yields : p.Yields P) (ran : p.run h s = (some a, s')) : P a := by
  induction p generalizing s with
  | done b =>
    obtain ⟨rfl, -⟩ : b = a ∧ s = s' := by simpa [run] using ran
    exact yields
  | never => simp [run] at ran
  | ask r next ih =>
    simp only [run] at ran
    split at ran
    · exact ih _ (yields _) ran
    · simp at ran

/-- Results that come after a request of `C` satisfy `P`. -/
def YieldsAfter (C : I.Request → Prop) (P : α → Prop) : Program I α → Prop
  | .done _ => True
  | .never => True
  | .ask r next => ∀ a, (next a).YieldsAfter C P ∧ (C r → (next a).Yields P)

theorem Yields.after {p : Program I α} (yields : p.Yields P) : p.YieldsAfter C P := by
  induction p with
  | done a => trivial
  | never => trivial
  | ask r next ih => exact fun a => ⟨ih a (yields a), fun _ => yields a⟩

/-- What comes before the first request of `C` may come to anything. -/
theorem yieldsAfter_bind {P : β → Prop} {p : Program I α} {f : α → Program I β}
    (before : p.Asks fun r => ¬C r) (later : ∀ a, (f a).YieldsAfter C P) :
    (p.bind f).YieldsAfter C P := by
  induction p with
  | done a => exact later a
  | never => trivial
  | ask r next ih => exact fun a => ⟨ih a (before.2 a), fun asked => absurd asked before.1⟩

/-- A run comes to a result that satisfies `P`, or it has not moved the state, which only requests
of `C` do. -/
theorem YieldsAfter.of_run {J : σ → Prop} {h : Handler I σ} {p : Program I α} {a : α} {s s' : σ}
    (yields : p.YieldsAfter C P) (keeps : ∀ r s, ¬C r → J s → J (h r s).2) (start : J s)
    (ran : p.run h s = (some a, s')) : P a ∨ J s' := by
  induction p generalizing s with
  | done b =>
    obtain ⟨-, rfl⟩ : b = a ∧ s = s' := by simpa [run] using ran
    exact .inr start
  | never => simp [run] at ran
  | ask r next ih =>
    simp only [run] at ran
    split at ran
    · next b s₁ answered =>
      by_cases asked : C r
      · exact .inl (((yields b).2 asked).of_run ran)
      · have kept := keeps r s asked start
        rw [answered] at kept
        exact ih b (yields b).1 kept ran
    · simp at ran

theorem yields_retry {b : Backoff} {retryable : ε → Bool} {wait : Duration → Program I Unit}
    {P : Except ε α → Prop} {call : Program I (Except ε α)} (attempt : call.Yields P) :
    (retry b retryable wait call).Yields P := by
  have repeated (left n : Nat) : (retryFrom b retryable wait call left n).Yields P := by
    induction left generalizing n with
    | zero => exact attempt
    | succ left ih =>
      refine Yields.bind (attempt.imp fun result done => ?_)
      cases result with
      | ok a => exact done
      | error e =>
        simp only
        split
        · exact Yields.bind (yields_true.imp fun _ _ => ih (n + 1))
        · exact done
  exact repeated _ 1

end Program

section FailsOnly

variable {α β ε : Type} {P Q : ε → Prop} {e : ε}

def FailsOnly (P : ε → Prop) (result : Except ε α) : Prop := ∀ e, result = .error e → P e

theorem failsOnly_ok {a : α} : FailsOnly P (.ok a) := by
  rintro e ⟨⟩

theorem failsOnly_error (holds : P e) : FailsOnly P (.error e : Except ε α) := by
  rintro _ ⟨⟩
  exact holds

theorem FailsOnly.mono {result : Except ε α} (only : FailsOnly P result) (weaker : ∀ e, P e → Q e) :
    FailsOnly Q result :=
  fun e failed => weaker e (only e failed)

theorem failsOnly_bind_of_ok {x : Except ε α} {f : α → Except ε β} (first : FailsOnly P x)
    (second : ∀ a, x = .ok a → FailsOnly P (f a)) : FailsOnly P (x >>= f) := by
  cases x with
  | ok a => exact second a rfl
  | error e => exact failsOnly_error (first e rfl)

theorem failsOnly_bind {x : Except ε α} {f : α → Except ε β} (first : FailsOnly P x)
    (second : ∀ a, FailsOnly P (f a)) : FailsOnly P (x >>= f) :=
  failsOnly_bind_of_ok first fun a _ => second a

theorem bind_ok_iff {x : Except ε α} {f : α → Except ε β} {b : β} :
    x >>= f = .ok b ↔ ∃ a, x = .ok a ∧ f a = .ok b := by
  cases x with
  | ok a => simp [bind, Except.bind]
  | error e => simp [bind, Except.bind]

end FailsOnly

abbrev Accepted {α : Type} (result : Except Error α) : Prop :=
  FailsOnly (fun e => e.isInvalidConfiguration = false) result

def Accepting {I : Interface} {α : Type} (w : Action I Error α) : Prop := w.run.Yields Accepted

section Accepting

variable {I J : Interface} {α β : Type} {e : Error}

theorem accepting_pure {a : α} : Accepting (pure a : Action I Error α) := failsOnly_ok

theorem accepting_throw (valid : e.isInvalidConfiguration = false) :
    Accepting (throw e : Action I Error α) := failsOnly_error valid

theorem accepting_of_result {result : Except Error α} (accepted : Accepted result) :
    Accepting (.mk (.done result) : Action I Error α) := accepted

theorem accepting_bind {x : Action I Error α} {f : α → Action I Error β} (first : Accepting x)
    (second : ∀ a, Accepting (f a)) : Accepting (x >>= f) := by
  unfold Accepting
  rw [ExceptT.run_bind]
  refine Program.Yields.bind (first.imp fun result accepted => ?_)
  cases result with
  | ok a => exact second a
  | error e => exact failsOnly_error (accepted e rfl)

theorem accepting_inLeft {w : Action I Error α} (accepting : Accepting w) :
    Accepting (w.inLeft (J := J)) :=
  Program.yields_substitute accepting

end Accepting

namespace Cluster

variable {α : Type} {c : Collection} {resource name : String} {v : Json}

theorem accepting_exchange {r : Request} {take : Reply → Except ApiError α} :
    Accepting (exchange resource r take) := by
  unfold Accepting
  rw [exchange_eq]
  intro reply
  show Accepted (blame resource (take reply))
  cases take reply with
  | ok a => exact failsOnly_ok
  | error e => exact failsOnly_error (Error.isInvalidConfiguration_ofApi resource e)

theorem accepting_persistently {w : Work α} (accepting : Accepting w) :
    Accepting (persistently w) :=
  Program.yields_retry accepting

theorem accepting_apply : Accepting (c.apply v) := by
  unfold Collection.apply
  split
  · exact accepting_throw rfl
  · exact accepting_bind accepting_exchange fun _ =>
      accepting_bind accepting_exchange fun _ => accepting_pure

end Cluster

namespace Deploy

open Cluster

variable {c : Collection} {vs : List Json} {all : List (Collection × List Json)}

theorem accepting_applyAll : Accepting (applyAll c vs) := by
  induction vs with
  | nil => exact accepting_pure
  | cons v rest ih =>
    exact accepting_bind (accepting_persistently accepting_apply) fun _ =>
      accepting_bind ih fun _ => accepting_pure

theorem accepting_applyObjects : Accepting (applyObjects all) := by
  induction all with
  | nil => exact accepting_pure
  | cons head rest ih =>
    exact accepting_bind accepting_applyAll fun _ => accepting_bind ih fun _ => accepting_pure

theorem accepting_rights {r : Rights} : Accepting r.ensure :=
  accepting_bind (accepting_persistently accepting_apply) fun _ =>
    accepting_bind accepting_applyObjects fun _ => accepting_pure

/-- An upsert fails for what keeps it from judging the stored object, or because of a request. -/
theorem accepting_upsert {u : Upsert} (judged : ∀ w, Accepted (u.keeps w)) :
    Accepting u.work := by
  unfold Upsert.work
  refine accepting_bind (accepting_persistently accepting_exchange) fun existing => ?_
  cases existing with
  | none =>
    exact accepting_bind (accepting_persistently accepting_exchange) fun _ => accepting_pure
  | some w =>
    simp only [Upsert.settle]
    have accepted := judged w
    cases verdict : u.keeps w with
    | error e => exact accepting_throw (accepted e verdict)
    | ok keeps =>
      cases keeps with
      | true => exact accepting_pure
      | false =>
        exact accepting_bind (accepting_persistently accepting_exchange) fun _ => accepting_pure

theorem accepting_operator {o : Operator} : Accepting o.ensure := by
  refine accepting_bind (accepting_persistently accepting_apply) fun _ =>
    accepting_bind accepting_applyObjects fun _ => accepting_bind ?_ fun _ => accepting_pure
  rw [Operator.ensureDeployment_eq]
  exact accepting_upsert fun _ => failsOnly_ok

theorem accepting_broker {ns : String} {spec : BrokerSpec} :
    Accepting (BrokerObject.ensure ns spec) := by
  rw [BrokerObject.ensure_eq]
  exact accepting_upsert fun _ => failsOnly_ok

theorem accepted_readRecord {configMap : Json} :
    Accepted (Globalnet.Record.ofConfigMap configMap) := by
  refine failsOnly_bind ?_ fun _ => failsOnly_bind ?_ fun _ => failsOnly_ok
  · unfold Globalnet.Record.readSize
    split
    · exact failsOnly_ok
    · split
      · exact failsOnly_ok
      · exact failsOnly_error rfl
  · unfold Globalnet.Record.readClusters
    split
    · exact failsOnly_ok
    · split
      · exact failsOnly_ok
      · exact failsOnly_error rfl

theorem accepted_checkExisting {existing : Option Globalnet.Record} {desired : Globalnet.Record}
    {ns : String} : Accepted (Globalnet.checkExisting existing desired ns) := by
  intro e failed
  cases existing with
  | none => cases failed
  | some r =>
    rcases Globalnet.checkExisting_cases r desired ns with ⟨-, verdict⟩ | ⟨-, verdict⟩ |
      ⟨-, m, verdict⟩
    · rw [verdict] at failed
      cases failed
    · rw [verdict] at failed
      cases failed
    · rw [verdict] at failed
      obtain rfl := Except.error.inj failed
      rfl

theorem accepted_keeps {ns : String} {desired : Globalnet.Record} (w : Json) :
    Accepted ((Globalnet.Record.upsert ns desired).keeps w) := by
  intro e failed
  cases read : Globalnet.Record.ofConfigMap w with
  | error e' =>
    simp only [Globalnet.Record.upsert, read, Except.error.injEq] at failed
    exact failed ▸ accepted_readRecord e' read
  | ok r =>
    rw [Globalnet.Record.keeps_of_record read] at failed
    cases judged : Globalnet.checkExisting (some r) desired ns with
    | error e' =>
      simp only [judged, Except.error.injEq] at failed
      exact failed ▸ accepted_checkExisting e' judged
    | ok decision => simp [judged] at failed

theorem accepting_record {ns : String} {desired : Globalnet.Record} :
    Accepting (Globalnet.Record.ensureStored ns desired) := by
  rw [Globalnet.Record.ensureStored_eq]
  exact accepting_upsert accepted_keeps

theorem accepting_validation {ns : String} {desired : Globalnet.Record} :
    Accepting (Globalnet.Record.validateStored ns desired) := by
  rw [Globalnet.Record.validateStored_eq]
  unfold Upsert.check
  refine accepting_bind (accepting_persistently accepting_exchange) fun existing => ?_
  cases existing with
  | none => exact accepting_pure
  | some w =>
    have accepted : Accepted ((Globalnet.Record.upsert ns desired).keeps w) := accepted_keeps w
    simp only
    cases verdict : (Globalnet.Record.upsert ns desired).keeps w with
    | error e => exact accepting_throw (accepted e verdict)
    | ok keeps => exact accepting_pure

theorem accepting_work {p : Plan} {step : Step} : Accepting (work clusterAppliers p step) := by
  cases step with
  | rbac => exact accepting_rights
  | operator => exact accepting_operator
  | broker => exact accepting_broker
  | globalnet => exact accepting_bind accepting_validation fun _ => accepting_record

section Timed

variable {I : Interface} {α : Type} {C : I.Request → Prop} {P : α → Prop} {limit : Option Duration}
  {cluster : String} {elapsed : Duration} {cancelled : Bool}

/-- The result, if work in time comes to one, satisfies `P`. -/
def Finishing (P : α → Prop) (result : Ending α × Bool) : Prop := ∀ a, result.1 = .finished a → P a

def AsksFor (C : I.Request → Prop) : (timed I).Request → Prop
  | .work r => C r
  | .report _ => False

theorem finishing_cancelled : Finishing P (.cancelled, cancelled) := by
  rintro a ⟨⟩

theorem finishing_timedOut {l : Duration} : Finishing P (.timedOut l, cancelled) := by
  rintro a ⟨⟩

theorem yields_stuck : (stuck (I := I) limit cancelled).Yields (Finishing P) := by
  unfold stuck
  split
  · exact finishing_cancelled
  · split
    · exact finishing_timedOut
    · trivial

theorem yields_bounded {p : Program I α} (yields : p.Yields P) :
    (bounded limit p elapsed cancelled).Yields (Finishing P) := by
  induction p generalizing elapsed cancelled with
  | done a =>
    rintro _ ⟨⟩
    exact yields
  | never => exact yields_stuck
  | ask r next ih =>
    rw [bounded]
    intro d
    cases d with
    | arrived wait cancels a =>
      cases wait with
      | none => exact ih a (yields a)
      | some wait =>
        simp only
        split
        · exact finishing_cancelled
        · split
          · exact finishing_timedOut
          · exact ih a (yields a)
    | interrupted after =>
      simp only
      split
      · exact finishing_cancelled
      · split
        · exact finishing_timedOut
        · exact finishing_cancelled
    | lost => exact yields_stuck

theorem yieldsAfter_bounded {p : Program I α} (yields : p.YieldsAfter C P) :
    (bounded limit p elapsed cancelled).YieldsAfter (AsksFor C) (Finishing P) := by
  induction p generalizing elapsed cancelled with
  | done a => trivial
  | never => exact yields_stuck.after
  | ask r next ih =>
    -- where the request counts, all that follows yields; where it does not, it is as good as before
    have counts : C r → (bounded limit (.ask r next) elapsed cancelled).Yields (Finishing P) :=
      fun asked => yields_bounded fun a => (yields a).2 asked
    rw [bounded] at counts ⊢
    intro d
    refine ⟨?_, fun asked => counts asked d⟩
    cases d with
    | arrived wait cancels a =>
      cases wait with
      | none => exact ih a (yields a).1
      | some wait =>
        simp only
        split
        · trivial
        · split
          · trivial
          · exact ih a (yields a).1
    | interrupted after =>
      simp only
      split
      · trivial
      · split <;> trivial
    | lost => exact yields_stuck.after

theorem yields_runStep {step : Step} {work : Action I Error Outcome} (accepting : Accepting work) :
    (runStep limit step work cancelled).Yields fun result => Accepted result.1 := by
  unfold runStep
  split
  · exact failsOnly_error rfl
  · refine Program.Yields.bind ((yields_bounded accepting).imp fun result finishing => ?_)
    obtain ⟨ending, cancelled⟩ := result
    cases ending with
    | finished result => exact finishing result rfl
    | cancelled => exact failsOnly_error rfl
    | timedOut l => exact failsOnly_error rfl

/-- A failed step fails for the reason that its work fails. -/
theorem yields_runSteps {work : Step → Action I Error Outcome} {steps : List Step}
    {outcomes : List (Step × Outcome)} (accepting : ∀ step, Accepting (work step)) :
    (runSteps limit cluster work steps cancelled outcomes).Yields Accepted := by
  induction steps generalizing cancelled outcomes with
  | nil => exact failsOnly_ok
  | cons step rest ih =>
    intro _
    show (Program.bind (runStep limit step (work step) cancelled) _).Yields Accepted
    refine Program.Yields.bind ((yields_runStep (accepting step)).imp fun result accepted => ?_)
    obtain ⟨result, cancelled⟩ := result
    cases result with
    | error e =>
      intro _
      exact failsOnly_error (accepted e rfl)
    | ok outcome =>
      intro _ _
      exact ih

theorem yields_deployBroker {o : Options} {p : Plan} (planned : plan o = .ok p) :
    (deployBroker o cluster clusterAppliers cancelled).Yields Accepted := by
  rw [deployBroker, planned]
  exact yields_runSteps fun _ => accepting_work

end Timed

end Deploy

namespace Gateway

open Cluster

variable {α : Type} {yaml : Yaml.Reader} {files : Files.Tree} {searchPath : List String}
  {p : Platform} {a : GatewayAction} {work : SiteWork α} {say : Error → String}

theorem accepting_tell {e : Event} : Accepting (tell e) := fun _ => failsOnly_ok

theorem accepting_onCluster {w : Work α} (accepting : Accepting w) : Accepting (onCluster w) :=
  accepting_inLeft accepting

theorem accepting_reporting (accepting : Accepting work) : Accepting (reporting say work) := by
  refine Program.Yields.bind (accepting.imp fun result accepted => ?_)
  cases result with
  | ok a => exact failsOnly_ok
  | error e => exact fun _ => failsOnly_error (accepted e rfl)

theorem accepting_inOrder {work : α → SiteWork Unit} {items : List α}
    (each : ∀ a, Accepting (work a)) : Accepting (inOrder work items) := by
  induction items with
  | nil => exact accepting_pure
  | cons a rest ih => exact accepting_bind (each a) fun _ => ih

theorem accepting_setLabel {value : Option String} {node : String} :
    Accepting (setLabel value node) :=
  accepting_bind accepting_exchange fun _ => accepting_pure

theorem accepted_select {nodes : List Json} {wanted : Nat} : Accepted (select nodes wanted) := by
  intro e failed
  unfold select at failed
  grind [Error.isInvalidConfiguration]

theorem accepting_labelGateways {count : Nat} : Accepting (labelGateways count) :=
  accepting_bind accepting_tell fun _ =>
    accepting_bind (accepting_onCluster accepting_exchange) fun _ =>
      accepting_bind (accepting_reporting (accepting_of_result accepted_select)) fun _ =>
        accepting_bind (accepting_inOrder fun _ =>
          accepting_reporting (accepting_onCluster accepting_setLabel)) fun _ => accepting_tell

theorem accepting_removeLabels : Accepting removeLabels :=
  accepting_bind accepting_tell fun _ =>
    accepting_bind (accepting_onCluster accepting_exchange) fun _ =>
      accepting_bind (accepting_inOrder fun _ =>
        accepting_reporting (accepting_onCluster accepting_setLabel)) fun _ => accepting_tell

theorem accepting_deployMachines {s : Openstack.Settings} {count : Nat} :
    Accepting (Openstack.deployMachines s count) :=
  accepting_bind accepting_tell fun _ =>
    accepting_bind (accepting_reporting (accepting_onCluster accepting_exchange)) fun _ =>
      accepting_tell

theorem accepting_removeMachines {s : Openstack.Settings} :
    Accepting (Openstack.removeMachines s) :=
  accepting_bind accepting_tell fun _ =>
    accepting_bind (accepting_reporting (accepting_onCluster accepting_exchange)) fun _ =>
      accepting_bind accepting_tell fun _ => accepting_removeLabels

structure Willing (d : Deployer Site) : Prop where
  deploy : ∀ count, Accepting (d.deploy count)
  cleanup : Accepting d.cleanup

theorem willing_workers : Willing workers :=
  ⟨fun _ => accepting_labelGateways, accepting_removeLabels⟩

theorem willing_openstack {s : Openstack.Settings} : Willing (Openstack.deployer s) where
  deploy count := by
    unfold Openstack.deployer
    simp only
    split
    · exact accepting_deployMachines
    · exact accepting_labelGateways
  cleanup := accepting_removeMachines

theorem accepting_perform {d : Deployer Site} (willing : Willing d) (valid : a.validate = .ok ()) :
    Accepting (perform d a) := by
  unfold perform
  rw [valid]
  cases a with
  | prepare count => exact willing.deploy count
  | cleanup => exact willing.cleanup

def IsCall : Site.Request → Prop
  | .inl _ => True
  | .inr _ => False

theorem asks_inRight {p : Program Reports α} :
    (Program.inRight (J := Reports) (I := Calls) p).Asks fun r => ¬IsCall r := by
  induction p with
  | done a => trivial
  | never => trivial
  | ask r next ih => exact ⟨not_false, ih⟩

/-- Everything that can be wrong with an action or its settings is found before the cluster is
asked. -/
theorem yieldsAfter_runOn : (runOn yaml files searchPath p a).run.YieldsAfter IsCall Accepted := by
  unfold runOn
  cases valid : a.validate with
  | error e => trivial
  | ok _ =>
    cases p with
    | generic => exact (accepting_perform willing_workers valid).after
    | openstack c =>
      simp only [Platform.deployer, bind_assoc, pure_bind]
      rw [ExceptT.run_bind]
      refine Program.yieldsAfter_bind asks_inRight fun result => ?_
      cases result with
      | error e => trivial
      | ok settings => exact (accepting_perform willing_openstack valid).after

end Gateway

end MultiCluster
