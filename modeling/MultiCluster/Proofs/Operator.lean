import MultiCluster.Deploy.Operator
import MultiCluster.Proofs.Rights

/-! The operator's objects and its deployment. A deployment that was stored runs, when it is read
again, the image and the verbosity that it was written with. -/
namespace MultiCluster.Deploy.Operator

open Cluster

variable {o : Operator} {n : Nat} {w : Json}

theorem further_deployment {spec : Json} : Kind.Further [("spec", spec)] := by
  simp

theorem labels_unset :
    ∀ e ∈ ("labels", labels) :: Object.named name o.namespaceName, e.1 ≠ "resourceVersion" := by
  simp [Object.named]

theorem allApplicable (o : Operator) : AllApplicable o.objects := by
  simp only [AllApplicable, objects, List.forall_mem_cons, List.not_mem_nil, false_imp_iff,
    implies_true, and_true]
  refine ⟨⟨name, ?_⟩, ⟨name, ?_⟩, name, ?_⟩
  · refine applicable_object rfl (by decide) (by simp) ?_ proper_named (by simp) ?_
    · simp [Object.named]
    · simp [Object.named, Fields.find?, Json.str?]
  · refine applicable_object rfl (by decide) further_rules ?_ ?_ (by simp [Json.proper]) ?_
    · simp
    · simp [Json.proper]
    · simp [Fields.find?, Json.str?]
  · refine applicable_object rfl (by decide) further_binding ?_ ?_
      (by simp [Json.proper, proper_roleReference]) ?_
    · simp
    · simp [Json.proper]
    · simp [Fields.find?, Json.str?]

theorem read_string {s : String} {u : Json} (ok : Shape.string.read (.str s) = .ok u) :
    u = .str s :=
  (Except.ok.inj ok).symm

/-- The container that is written, as it is read back: its name, image and arguments. -/
theorem runs_of_read {u : Json} (ok : Shape.container.read o.container = .ok u) :
    u.textAt? ["name"] = some name ∧ o.runs u = true := by
  have once : (Shape.containerFields.map (·.1)).Nodup := by decide
  have nameField : ("name", true, Shape.string) ∈ Shape.containerFields := by
    simp [Shape.containerFields, Shape.opt, Shape.req]
  have imageField : ("image", false, Shape.string) ∈ Shape.containerFields := by
    simp [Shape.containerFields, Shape.opt, Shape.req]
  have argsField : ("args", false, Shape.strings) ∈ Shape.containerFields := by
    simp [Shape.containerFields, Shape.opt, Shape.req]
  obtain ⟨_, nameRead, gotName⟩ := Shape.part_of_read_record (v := .str name) ok once nameField
    (by simp [Fields.find?]) (by simp)
  obtain ⟨_, imageRead, gotImage⟩ := Shape.part_of_read_record (v := .str o.image) ok once imageField
    (by simp [Fields.find?]) (by simp)
  obtain ⟨_, argsRead, gotArgs⟩ := Shape.part_of_read_record (v := Json.strings (arguments o.debug))
    ok once argsField (by simp [Fields.find?]) (by simp [Json.strings])
  obtain rfl := read_string nameRead
  obtain rfl := read_string imageRead
  obtain rfl := Except.ok.inj (Shape.read_strings.symm.trans argsRead)
  simp [runs, Json.textAt?_single, gotName, gotImage, gotArgs, Json.str?]

theorem container?_of_read (ok : Kind.deployment.readTyped (Server.withVersion n o.deployment) = .ok w) :
    ∃ c, container? w = some c ∧ o.runs c = true := by
  have spec : (Server.withVersion n o.deployment).get? "spec" = _ :=
    (Server.get?_withVersion (by decide)).trans (Kind.get?_object (by decide))
  simp only [List.reverse_singleton, Fields.find?, beq_self_eq_true, if_true] at spec
  obtain ⟨spec', readSpec, gotSpec⟩ := Kind.part_of_readTyped ok
    (show ("spec", false, Shape.deploymentSpec) ∈ Kind.deployment.objectFields by
      simp [Kind.objectFields, Kind.fields, Shape.opt]) spec (by simp)
  obtain ⟨template, readTemplate, gotTemplate⟩ := Shape.part_of_read_record readSpec (by decide)
    (show ("template", true, Shape.podTemplate) ∈ _ by simp [Shape.req, Shape.opt])
    (by simp [Fields.find?]; rfl) (by simp)
  obtain ⟨podSpec, readPodSpec, gotPodSpec⟩ := Shape.part_of_read_record readTemplate (by decide)
    (show ("spec", false, Shape.podSpec) ∈ _ by simp [Shape.opt])
    (by simp [Fields.find?]; rfl) (by simp)
  obtain ⟨containers, readContainers, gotContainers⟩ := Shape.part_of_read_record readPodSpec
    (by decide) (show ("containers", true, Shape.list Shape.container) ∈ _ by
      simp [Shape.req, Shape.opt]) (by simp [Fields.find?]; rfl) (by simp)
  obtain ⟨c, readContainer, rfl⟩ := Shape.part_of_read_single readContainers
  obtain ⟨named, runs⟩ := runs_of_read readContainer
  refine ⟨c, ?_, runs⟩
  simp [container?, Json.itemsAt, Json.at?, gotSpec, gotTemplate, gotPodSpec, gotContainers,
    Json.arr?, named]

def upsert (o : Operator) : Upsert where
  collection := o.deployments
  name := name
  created := o.deployment
  keeps d := .ok (match container? d with | some c => o.runs c | none => false)
  replacement d := Object.withVersion (Object.version? d) o.deployment

theorem ensureDeployment_eq : o.ensureDeployment = o.upsert.work := by
  unfold ensureDeployment Upsert.work
  refine bind_congr fun existing => ?_
  cases existing with
  | none => rfl
  | some d =>
    simp only [action, Upsert.settle, upsert]
    cases container? d with
    | none => rfl
    | some c =>
      cases runs : o.runs c
      · simp only [runs, Bool.false_eq_true, if_false]
        rfl
      · simp only [runs, if_true]

theorem upsert_kept (n : Nat) (ok : Kind.deployment.read (Server.withVersion n o.deployment) = .ok w) :
    o.upsert.keeps w = .ok true := by
  obtain ⟨c, found, runs⟩ := container?_of_read ok
  simp [upsert, found, runs]

theorem upsert_sound : o.upsert.Sound where
  named := (Kind.name?_object further_deployment).trans (by
    simp [Object.named, Fields.find?, Json.str?, upsert])
  notMachineSet := by simp [upsert, deployments, Collection.inNamespace]
  createdMetadata := Kind.hasMetadata_object further_deployment
  createdKept n _ reading := upsert_kept n reading
  replacementMetadata _ := Kind.hasMetadata_bound _ further_deployment
  bound _ _ := .inr (Kind.versionOf_bound _ further_deployment labels_unset)
  replacementKept _ n reading := upsert_kept n (by
    rwa [show o.upsert.replacement _ = Object.withVersion _ o.deployment from rfl,
      show Server.withVersion n (Object.withVersion _ o.deployment) = _ from
        Kind.stamp_bound _ further_deployment] at reading)

end MultiCluster.Deploy.Operator
