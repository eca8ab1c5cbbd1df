import Mathlib.Data.List.Nodup
import MultiCluster.Deploy.OnCluster
import MultiCluster.Proofs.BrokerObject
import MultiCluster.Proofs.Errands
import MultiCluster.Proofs.Operator
import MultiCluster.Proofs.StoredRecord

/-! The steps of a deployment as errands: access rights, the operator's objects and its deployment,
the broker object, and the globalnet record. No two of them are about the same object, unless broker
and operator share a namespace. -/
namespace MultiCluster.Deploy

open Cluster

variable {p : Plan} {step : Step}

theorem applyAll_eq {c : Collection} {objects : List Json} : applyAll c objects =
    Errand.performAll (objects.map fun v => applyErrand c ((Object.name? v).getD "") v) := by
  induction objects with
  | nil => rfl
  | cons v rest ih =>
    rw [applyAll, ih]
    rfl

theorem applyObjects_eq {objects : List (Collection × List Json)} :
    applyObjects objects = Errand.performAll (appliedErrands objects) := by
  induction objects with
  | nil => rfl
  | cons group rest ih =>
    obtain ⟨c, items⟩ := group
    have split : appliedErrands ((c, items) :: rest) =
        items.map (fun v => applyErrand c ((Object.name? v).getD "") v) ++ appliedErrands rest :=
      List.flatMap_cons
    rw [applyObjects, applyAll_eq, ih, split, Errand.performAll_append]

def Plan.errands (p : Plan) : Step → List Errand
  | .rbac => namespaceErrand p.rights.brokerNamespace :: appliedErrands p.rights.objects
  | .operator => namespaceErrand p.operator.namespaceName ::
      (appliedErrands p.operator.objects ++ [p.operator.upsert.errand])
  | .broker => [(BrokerObject.upsert p.namespaceName p.broker).errand]
  | .globalnet => [(Globalnet.Record.upsert p.namespaceName p.record).checkedErrand]

theorem combine_single {outcome : Outcome} : Outcome.combine [outcome] = outcome := by
  cases outcome <;> rfl

theorem combine_eq_unchanged_iff {outcomes : List Outcome} :
    Outcome.combine outcomes = .unchanged ↔ ∀ o ∈ outcomes, o = .unchanged := by
  have all : (∀ o ∈ outcomes, o = Outcome.unchanged) ↔
      outcomes.contains .created = false ∧ outcomes.contains .updated = false := by
    simp only [List.contains_eq_mem, decide_eq_false_iff_not]
    constructor
    · intro unchanged
      constructor
      · intro member
        cases unchanged _ member
      · intro member
        cases unchanged _ member
    · rintro ⟨notCreated, notUpdated⟩ o member
      cases o with
      | created => exact absurd member notCreated
      | updated => exact absurd member notUpdated
      | unchanged => rfl
  rw [all]
  unfold Outcome.combine
  cases outcomes.contains .created <;> cases outcomes.contains .updated <;>
    cases outcomes.contains .unchanged <;> simp

theorem combine_eq_created_iff {outcomes : List Outcome} (nonempty : outcomes ≠ []) :
    Outcome.combine outcomes = .created ↔ ∀ o ∈ outcomes, o = .created := by
  have all : (∀ o ∈ outcomes, o = Outcome.created) ↔ outcomes.contains .created = true ∧
      outcomes.contains .updated = false ∧ outcomes.contains .unchanged = false := by
    simp only [List.contains_eq_mem, decide_eq_false_iff_not, decide_eq_true_iff]
    constructor
    · intro created
      obtain ⟨first, rest, rfl⟩ := List.exists_cons_of_ne_nil nonempty
      obtain rfl := created first List.mem_cons_self
      refine ⟨List.mem_cons_self, ?_, ?_⟩
      · intro member
        cases created _ member
      · intro member
        cases created _ member
    · rintro ⟨-, notUpdated, notUnchanged⟩ o member
      cases o with
      | created => rfl
      | updated => exact absurd member notUpdated
      | unchanged => exact absurd member notUnchanged
  rw [all]
  unfold Outcome.combine
  cases outcomes.contains .created <;> cases outcomes.contains .updated <;>
    cases outcomes.contains .unchanged <;> simp

theorem performAll_single {e : Errand} :
    Outcome.combine <$> Errand.performAll [e] = e.work := by
  simp [Errand.performAll, combine_single]

/-- The outcome of a step combines the outcomes of its errands. -/
theorem work_eq : work clusterAppliers p step =
    Outcome.combine <$> Errand.performAll (p.errands step) := by
  cases step with
  | rbac =>
    show Rights.ensure p.rights = _
    rw [Rights.ensure, applyObjects_eq]
    simp [Plan.errands, Errand.performAll, namespaceErrand, applyErrand, ensureNamespace]
  | operator =>
    show Operator.ensure p.operator = _
    rw [Operator.ensure, applyObjects_eq, Operator.ensureDeployment_eq]
    simp [Plan.errands, Errand.performAll, Errand.performAll_append, namespaceErrand, applyErrand,
      ensureNamespace, Upsert.errand]
  | broker =>
    rw [Plan.errands, performAll_single]
    exact BrokerObject.ensure_eq
  | globalnet =>
    rw [Plan.errands, performAll_single]
    show (Globalnet.Record.validateStored _ _ >>= fun _ => Globalnet.Record.ensureStored _ _) = _
    rw [Globalnet.Record.validateStored_eq, Globalnet.Record.ensureStored_eq]
    rfl

/-- What is true of applied objects and of sound operations is true of all errands of a plan. -/
theorem forall_errands {P : Errand → Prop}
    (applied : ∀ c name v, Applicable c name v → P (applyErrand c name v))
    (ensured : ∀ u : Upsert, u.Sound → P u.errand)
    (checked : ∀ u : Upsert, u.Sound → P u.checkedErrand) : ∀ e ∈ p.errands step, P e := by
  intro e member
  cases step with
  | rbac =>
    rcases List.mem_cons.mp member with rfl | ofRights
    · exact applied _ _ _ applicable_namespace
    · exact forall_appliedErrands (Rights.allApplicable _) applied e ofRights
  | operator =>
    rcases List.mem_cons.mp member with rfl | later
    · exact applied _ _ _ applicable_namespace
    · rcases List.mem_append.mp later with ofOperator | last
      · exact forall_appliedErrands (Operator.allApplicable _) applied e ofOperator
      · obtain rfl := List.mem_singleton.mp last
        exact ensured _ Operator.upsert_sound
  | broker =>
    obtain rfl := List.mem_singleton.mp member
    exact ensured _ BrokerObject.upsert_sound
  | globalnet =>
    obtain rfl := List.mem_singleton.mp member
    exact checked _ Globalnet.Record.upsert_sound

theorem errands_lawful {e : Errand} (member : e ∈ p.errands step) : e.Lawful :=
  forall_errands (fun _ _ _ => applyErrand_lawful) (fun _ => Upsert.errand_lawful)
    (fun _ => Upsert.checkedErrand_lawful) e member

def Plan.recordErrand (p : Plan) : Errand :=
  (Globalnet.Record.upsert p.namespaceName p.record).checkedErrand

/-- The errands of the other steps, apart from those that make sure of a namespace. -/
def Plan.otherErrands (p : Plan) : List Errand :=
  appliedErrands p.rights.objects ++ appliedErrands p.operator.objects ++
    [p.operator.upsert.errand, (BrokerObject.upsert p.namespaceName p.broker).errand]

def Plan.ownErrands (p : Plan) : List Errand := p.otherErrands ++ [p.recordErrand]

theorem mem_errands {e : Errand} (member : e ∈ p.errands step) :
    (∃ name, e = namespaceErrand name) ∨ e ∈ p.otherErrands ∨
      step = .globalnet ∧ e = p.recordErrand := by
  cases step with
  | rbac =>
    rcases List.mem_cons.mp member with rfl | applied
    · exact .inl ⟨_, rfl⟩
    · exact .inr (.inl (by simp [Plan.otherErrands, applied]))
  | operator =>
    rcases List.mem_cons.mp member with rfl | later
    · exact .inl ⟨_, rfl⟩
    · rcases List.mem_append.mp later with applied | last
      · exact .inr (.inl (by simp [Plan.otherErrands, applied]))
      · exact .inr (.inl (by simp [Plan.otherErrands, List.mem_singleton.mp last]))
  | broker => exact .inr (.inl (by simp [Plan.otherErrands, List.mem_singleton.mp member]))
  | globalnet => exact .inr (.inr ⟨rfl, List.mem_singleton.mp member⟩)

theorem mem_ownErrands {e : Errand} (member : e ∈ p.errands step) :
    (∃ name, e = namespaceErrand name) ∨ e ∈ p.ownErrands := by
  rcases mem_errands member with isNamespace | other | ⟨-, rfl⟩
  · exact .inl isNamespace
  · exact .inr (List.mem_append_left _ other)
  · exact .inr (by simp [Plan.ownErrands])

theorem resourcePath_namespace {name : String} :
    Server.resourcePath (namespaceErrand name).path = ["namespaces", name] :=
  Collection.resourcePath_member

theorem resourcePaths_own : p.ownErrands.map (fun e => Server.resourcePath e.path) = [
    ["customresourcedefinitions", BrokerSpec.definitionName],
    ["serviceaccounts", Rights.adminName], ["serviceaccounts", Rights.clientName],
    ["roles", Rights.adminName], ["roles", Rights.clusterRoleName],
    ["rolebindings", Rights.adminName], ["rolebindings", Rights.clientName],
    ["secrets", Rights.tokenName], ["serviceaccounts", Operator.name],
    ["clusterroles", Operator.name], ["clusterrolebindings", Operator.name],
    ["deployments", Operator.name], ["brokers", BrokerObject.name],
    ["configmaps", Globalnet.Record.mapName]] := by
  simp [Plan.ownErrands, Plan.otherErrands, Plan.recordErrand, appliedErrands, applyErrand,
    Upsert.errand, Upsert.checkedErrand,
    Upsert.path, Collection.resourcePath_member, Collection.inNamespace, Collection.clusterWide,
    Kind.plural, Kind.name?_object, Rights.objects, Rights.accounts, Rights.roles, Rights.bindings,
    Rights.clientToken, Rights.metadata, Rights.applicable_definition.named, Object.named,
    Fields.find?, Json.str?, Operator.objects, Operator.account, Operator.role, Operator.binding,
    Operator.upsert, Operator.deployments, BrokerObject.upsert, Globalnet.Record.upsert,
    Globalnet.Record.maps]

theorem own_injective {e f : Errand} (first : e ∈ p.ownErrands) (second : f ∈ p.ownErrands)
    (same : Server.resourcePath e.path = Server.resourcePath f.path) : e = f := by
  have distinct : (p.ownErrands.map fun e => Server.resourcePath e.path).Nodup := by
    rw [resourcePaths_own]
    decide
  exact List.inj_on_of_nodup_map distinct first second same

theorem own_ne_namespace {e : Errand} {name : String} (member : e ∈ p.ownErrands) :
    e.path ≠ (namespaceErrand name).path := by
  intro same
  have listed := List.mem_map_of_mem (f := fun e => Server.resourcePath e.path) member
  rw [resourcePaths_own, same, resourcePath_namespace] at listed
  simp at listed

/-- Errands of a plan that are about the same object are the same. -/
theorem errands_injective {e f : Errand} {step' : Step} (first : e ∈ p.errands step)
    (second : f ∈ p.errands step') (same : e.path = f.path) : e = f := by
  rcases mem_ownErrands first with ⟨name, rfl⟩ | own <;>
    rcases mem_ownErrands second with ⟨name', rfl⟩ | own'
  · have names := congrArg Server.resourcePath same
    rw [resourcePath_namespace, resourcePath_namespace] at names
    simp only [List.cons.injEq, and_true, true_and] at names
    rw [names]
  · exact absurd same.symm (own_ne_namespace own')
  · exact absurd same (own_ne_namespace own)
  · exact own_injective own own' (congrArg _ same)

theorem record_of_resourcePath {e : Errand} (member : e ∈ p.errands step)
    (about : Server.resourcePath e.path = ["configmaps", Globalnet.Record.mapName]) :
    step = .globalnet ∧ e = p.recordErrand := by
  have distinct : (p.ownErrands.map fun e => Server.resourcePath e.path).Nodup := by
    rw [resourcePaths_own]
    decide
  rcases mem_errands member with ⟨name, rfl⟩ | other | isRecord
  · rw [resourcePath_namespace] at about
    simp at about
  · rw [Plan.ownErrands, List.map_append, List.nodup_append] at distinct
    have about' : Server.resourcePath p.recordErrand.path = ["configmaps", _] :=
      Collection.resourcePath_member
    exact absurd (about.trans about'.symm) (distinct.2.2 _ (List.mem_map_of_mem other) _ (by simp))
  · exact isRecord

theorem errands_harmonious {steps : List Step} :
    Errand.Harmonious (steps.flatMap p.errands) where
  lawful e member := by
    obtain ⟨step, -, ofStep⟩ := List.mem_flatMap.mp member
    exact errands_lawful ofStep
  agree e first f second same := by
    obtain ⟨_, -, ofStep⟩ := List.mem_flatMap.mp first
    obtain ⟨_, -, ofStep'⟩ := List.mem_flatMap.mp second
    exact congrArg Errand.effect (errands_injective ofStep ofStep' same)

def Plan.tasks (p : Plan) : List Errand := p.steps.flatMap p.errands

end MultiCluster.Deploy
