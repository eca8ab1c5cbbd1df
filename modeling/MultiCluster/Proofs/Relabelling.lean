import MultiCluster.Gateway.Labelling
import MultiCluster.Proofs.NodeReading

/-! Setting and removing the gateway label. A merge patch that says one thing changes one place of
an object, and the server adds a new version; so a number of such patches, in any order and repeated
or not, relabels a set of nodes and leaves everything else as it was. -/
namespace MultiCluster.Json

variable {p q : List String} {key a b : String} {u v leaf : Json} {value : Option String}

/-- Neither path leads through the end of the other. -/
def Apart (p q : List String) : Prop := ¬ p <+: q ∧ ¬ q <+: p

@[simp] theorem not_apart_nil_left : ¬ Apart [] q := fun apart => apart.1 (List.nil_prefix)

@[simp] theorem not_apart_nil_right : ¬ Apart p [] := fun apart => apart.2 (List.nil_prefix)

@[simp] theorem apart_cons : Apart (a :: p) (b :: q) ↔ a ≠ b ∨ Apart p q := by
  simp only [Apart, List.cons_prefix_cons]
  tauto

def patchAt (leaf : Json) : List String → Json
  | [] => leaf
  | key :: rest => .obj [(key, patchAt leaf rest)]

theorem find?_obj?_getD : Fields.find? key (v.obj?.getD []) = v.get? key := by
  cases v <;> rfl

theorem get?_mergePatch_of_ne (other : a ≠ b) :
    (v.mergePatch (.obj [(b, u)])).get? a = v.get? a := by
  simp only [mergePatch, mergeFields, get?_obj]
  split
  · rw [Fields.find?_erase_of_ne other, find?_obj?_getD]
  · rw [Fields.find?_insert_of_ne other, find?_obj?_getD]

theorem get?_mergePatch_self : (v.mergePatch (.obj [(b, u)])).get? b =
    if u.isNull then none else some (((v.get? b).getD .null).mergePatch u) := by
  simp only [mergePatch, mergeFields, get?_obj, find?_obj?_getD]
  split
  · exact Fields.find?_eq_none_iff.mpr fun e member => by
      simpa using (List.mem_filter.mp member).2
  · exact Fields.find?_insert_self

theorem mergePatch_deeper (present : u.isNull = false) : v.mergePatch (.obj [(b, u)]) =
    .obj (Fields.insert b (((v.get? b).getD .null).mergePatch u) (v.obj?.getD [])) := by
  simp [mergePatch, mergeFields, present, find?_obj?_getD]

theorem isNull_patchAt (inside : p ≠ []) : (patchAt leaf p).isNull = false := by
  cases p with
  | nil => exact absurd rfl inside
  | cons key rest => rfl

theorem at?_getD_null (inside : p ≠ []) (found : Option Json) :
    (found.getD .null).at? p = found.bind fun w => w.at? p := by
  cases found with
  | none =>
    cases p with
    | nil => exact absurd rfl inside
    | cons key rest => rfl
  | some w => rfl

/-- A patch of one place leaves every place apart from it alone. -/
theorem at?_patchAt_of_apart (apart : Apart p q) :
    (v.mergePatch (patchAt leaf q)).at? p = v.at? p := by
  induction q generalizing p v with
  | nil => exact absurd apart not_apart_nil_right
  | cons b q ih =>
    cases p with
    | nil => exact absurd apart not_apart_nil_left
    | cons a p =>
      by_cases same : a = b
      · subst same
        have deeper : Apart p q := (apart_cons.mp apart).resolve_left fun other => other rfl
        have inside : q ≠ [] := by
          rintro rfl
          exact not_apart_nil_right deeper
        have below : p ≠ [] := by
          rintro rfl
          exact not_apart_nil_left deeper
        simp only [patchAt, at?, get?_mergePatch_self, isNull_patchAt inside, Bool.false_eq_true,
          if_false, Option.bind_some]
        rw [ih deeper, at?_getD_null below]
      · simp only [patchAt, at?, get?_mergePatch_of_ne same]

/-- The place itself holds what the patch says; null means nothing. -/
theorem at?_patchAt_self (inside : q ≠ []) :
    (v.mergePatch (patchAt (text value) q)).at? q = value.map .str := by
  induction q generalizing v with
  | nil => exact absurd rfl inside
  | cons b q ih =>
    cases q with
    | nil =>
      simp only [patchAt, at?, get?_mergePatch_self]
      cases value <;> simp [isNull, text, mergePatch]
    | cons a q =>
      rw [patchAt, at?, get?_mergePatch_self]
      exact ih (by simp)

end MultiCluster.Json

namespace MultiCluster.Cluster

variable {s s' : Server} {c : Collection} {name : String} {p : List String} {n : Nat} {u v : Json}

def versionPath : List String := ["metadata", "resourceVersion"]

theorem Server.at?_withVersion (apart : Json.Apart p versionPath) :
    (withVersion n v).at? p = v.at? p := by
  rcases p with _ | ⟨a, _ | ⟨b, p⟩⟩
  · exact absurd apart Json.not_apart_nil_left
  · obtain other : a ≠ "metadata" := by simpa [versionPath] using apart
    simp only [Json.at?, get?_withVersion other]
  · by_cases same : a = "metadata"
    · subst same
      obtain other : b ≠ "resourceVersion" := by simpa [versionPath] using apart
      cases v with
      | obj fields =>
        have within : (withVersion n (.obj fields)).get? "metadata" =
            some (((Fields.find? "metadata" fields).getD (.obj [])).set "resourceVersion"
              (.str (Text.decimal n))) := Fields.find?_insert_self
        simp only [Json.at?, within, Json.get?_obj, Option.bind_some]
        cases Fields.find? "metadata" fields with
        | none => simp [Json.set, Fields.insert, Json.get?, Fields.find?, other.symm]
        | some m => cases m <;> simp [Json.set, Json.get?, Fields.find?_insert_of_ne other]
      | _ => rfl
    · rw [Json.at?, Json.at?, get?_withVersion same]

theorem serve_mergeRequest : s.serve (c.mergeRequest name u) = match c.at? name s with
    | none => (Server.notFound (c.member name), s)
    | some v =>
      if v.mergePatch u = v then (.document 200 v, s)
      else s.write (c.member name) (v.mergePatch u) := by
  unfold Server.serve Server.patch Collection.mergeRequest Collection.at?
  cases s.objects.find? (c.member name) <;> simp

end MultiCluster.Cluster

namespace MultiCluster.Gateway

open Cluster Json

variable {s s₁ s₂ : Server} {x y : String} {S R : Finset String} {value : Option String}
  {v w u : Json} {p : Path}

def Alike (v w : Json) : Prop :=
  ∀ p, Apart p gatewayPath → Apart p versionPath → w.at? p = v.at? p

theorem Alike.refl : Alike v v := fun _ _ _ => rfl

theorem Alike.trans (first : Alike v w) (second : Alike w u) : Alike v u :=
  fun p label version => (second p label version).trans (first p label version)

theorem Alike.name? (alike : Alike v w) : Object.name? w = Object.name? v := by
  have same := alike ["metadata", "name"] (by simp [gatewayPath]) (by simp [versionPath])
  rw [Object.name?, Object.name?, textAt?, textAt?, same]

theorem Alike.label (alike : Alike v w) {key : String} (other : key ≠ gatewayLabel) :
    w.at? ["metadata", "labels", key] = v.at? ["metadata", "labels", key] :=
  alike _ (by simp [gatewayPath, other]) (by simp [versionPath])

theorem isGateway_iff : isGateway v = true ↔ v.at? gatewayPath = some (.str "true") := by
  rw [isGateway, Object.label?, textAt?, beq_iff_eq, ← gatewayPath]
  cases v.at? gatewayPath with
  | none => simp
  | some u => cases u <;> simp [str?]

theorem not_isCandidate (gateway : isGateway v = true) : isCandidate v = false := by
  simp [isCandidate, gateway]

def gateways (s : Server) : Finset String := nodes.namesWhere isGateway s

def candidates (s : Server) : Finset String := nodes.namesWhere isCandidate s

/-- A set of nodes got a value of the gateway label, or lost it, and nothing else changed. -/
structure Relabelled (value : Option String) (S : Finset String) (s s' : Server) : Prop where
  within : ∀ x ∈ S, ∃ v w, nodes.at? x s = some v ∧ nodes.at? x s' = some w ∧ Alike v w ∧
    w.at? gatewayPath = value.map .str
  outside : ∀ p, (∀ x ∈ S, p ≠ nodes.member x) → s'.objects.find? p = s.objects.find? p

namespace Relabelled

theorem refl : Relabelled value ∅ s s where
  within x member := absurd member (Finset.notMem_empty x)
  outside _ _ := rfl

theorem at?_of_notMem (relabelled : Relabelled value S s s₁) (other : x ∉ S) :
    nodes.at? x s₁ = nodes.at? x s := by
  refine relabelled.outside _ fun y member same => ?_
  exact other (Collection.member_injective same ▸ member)

theorem trans (first : Relabelled value S s s₁) (second : Relabelled value R s₁ s₂) :
    Relabelled value (S ∪ R) s s₂ where
  within x member := by
    by_cases again : x ∈ R
    · obtain ⟨v, w, before, after, alike, labelled⟩ := second.within x again
      by_cases inFirst : x ∈ S
      · obtain ⟨u, v', start, middle, like, -⟩ := first.within x inFirst
        obtain rfl : v' = v := Option.some.inj (middle.symm.trans before)
        exact ⟨u, w, start, after, like.trans alike, labelled⟩
      · exact ⟨v, w, (first.at?_of_notMem inFirst) ▸ before, after, alike, labelled⟩
    · have inFirst : x ∈ S := (Finset.mem_union.mp member).resolve_right again
      obtain ⟨u, v, start, middle, alike, labelled⟩ := first.within x inFirst
      exact ⟨u, v, start, (second.at?_of_notMem again).trans middle, alike, labelled⟩
  outside p outside := by
    rw [second.outside p fun x member => outside x (Finset.mem_union_right S member),
      first.outside p fun x member => outside x (Finset.mem_union_left R member)]

/-- A node that is stored afterwards was stored before, and is much the same. -/
theorem before (relabelled : Relabelled value S s s₁) (found : nodes.at? x s₁ = some w) :
    ∃ v, nodes.at? x s = some v ∧ Alike v w := by
  by_cases member : x ∈ S
  · obtain ⟨v, w', start, after, alike, -⟩ := relabelled.within x member
    obtain rfl : w' = w := Option.some.inj (after.symm.trans found)
    exact ⟨v, start, alike⟩
  · exact ⟨w, relabelled.at?_of_notMem member ▸ found, .refl⟩

theorem after (relabelled : Relabelled value S s s₁) (found : nodes.at? x s = some v) :
    ∃ w, nodes.at? x s₁ = some w ∧ Alike v w := by
  by_cases member : x ∈ S
  · obtain ⟨v', w, start, after, alike, -⟩ := relabelled.within x member
    obtain rfl : v' = v := Option.some.inj (start.symm.trans found)
    exact ⟨w, after, alike⟩
  · exact ⟨v, (relabelled.at?_of_notMem member).trans found, .refl⟩

theorem tidy (relabelled : Relabelled value S s s₁) (tidy : nodes.Tidy s)
    (once : s₁.objects.Once) : nodes.Tidy s₁ where
  once := once
  named x w found := by
    obtain ⟨v, start, alike⟩ := relabelled.before found
    rw [alike.name?, tidy.named x v start]

/-- A condition that the value decides is true of the relabelled nodes, or of none of them. -/
theorem namesWhere_eq (relabelled : Relabelled value S s s₁) (tidy : nodes.Tidy s)
    (once : s₁.objects.Once) {P : Json → Bool} (decided : Bool)
    (decides : ∀ w, w.at? gatewayPath = value.map .str → P w = decided) :
    nodes.namesWhere P s₁ =
      if decided then nodes.namesWhere P s ∪ S else nodes.namesWhere P s \ S := by
  ext x
  have member : x ∈ nodes.namesWhere P s₁ ↔
      (x ∈ S ∧ decided = true) ∨ (x ∉ S ∧ x ∈ nodes.namesWhere P s) := by
    rw [Collection.mem_namesWhere once, Collection.mem_namesWhere tidy.once]
    by_cases inside : x ∈ S
    · obtain ⟨v, w, -, after, -, labelled⟩ := relabelled.within x inside
      simp [inside, after, decides w labelled]
    · simp [inside, relabelled.at?_of_notMem inside]
  rw [member]
  cases decided <;> simp <;> tauto

theorem gateways_eq (relabelled : Relabelled (some "true") S s s₁) (tidy : nodes.Tidy s)
    (once : s₁.objects.Once) : gateways s₁ = gateways s ∪ S :=
  relabelled.namesWhere_eq tidy once true fun _ labelled => isGateway_iff.mpr labelled

theorem candidates_eq (relabelled : Relabelled (some "true") S s s₁) (tidy : nodes.Tidy s)
    (once : s₁.objects.Once) : candidates s₁ = candidates s \ S :=
  relabelled.namesWhere_eq tidy once false fun _ labelled =>
    not_isCandidate (isGateway_iff.mpr labelled)

theorem gateways_eq_sdiff (relabelled : Relabelled none S s s₁) (tidy : nodes.Tidy s)
    (once : s₁.objects.Once) : gateways s₁ = gateways s \ S :=
  relabelled.namesWhere_eq tidy once false fun w labelled => by
    rw [← Bool.not_eq_true, isGateway_iff, labelled]
    simp

end Relabelled

def relabel (value : Option String) (x : String) (s : Server) : Server :=
  (s.serve (nodes.mergeRequest x (labelPatch value))).2

theorem relabelled_relabel (value : Option String) (found : nodes.at? x s = some v) :
    Relabelled value {x} s (relabel value x s) := by
  have there : (v.mergePatch (labelPatch value)).at? gatewayPath = value.map .str :=
    at?_patchAt_self (by simp [gatewayPath])
  have elsewhere : Alike v (v.mergePatch (labelPatch value)) :=
    fun p label _ => at?_patchAt_of_apart label
  rw [relabel, serve_mergeRequest, found]
  by_cases nothing : v.mergePatch (labelPatch value) = v
  · simp only [nothing, if_true]
    refine ⟨fun y member => ?_, fun _ _ => rfl⟩
    obtain rfl := Finset.mem_singleton.mp member
    exact ⟨v, v, found, found, .refl, nothing ▸ there⟩
  · simp only [nothing, if_false]
    refine ⟨fun y member => ?_, fun p outside => ?_⟩
    · obtain rfl := Finset.mem_singleton.mp member
      refine ⟨v, _, found, Server.find?_write_self, fun p label version => ?_, ?_⟩
      · rw [Server.at?_withVersion version, elsewhere p label version]
      · rw [Server.at?_withVersion (by simp [gatewayPath, versionPath]), there]
    · exact Server.find?_write_of_ne (outside x (Finset.mem_singleton_self x))

/-! ### Nodes that can be read -/

theorem readEntries_ok_iff {read : Json → Except String Json} {fields : Fields} :
    (∃ kept, Shape.readEntries read fields = .ok kept) ↔ ∀ e ∈ fields, ∃ w, read e.2 = .ok w := by
  induction fields with
  | nil => simp [Shape.readEntries]
  | cons head rest ih =>
    obtain ⟨key, v⟩ := head
    rw [List.forall_mem_cons, ← ih, Shape.readEntries]
    cases read v with
    | error e => simp [bind, Except.bind]
    | ok w =>
      cases Shape.readEntries read rest <;> simp [bind, Except.bind, pure, Except.pure]

theorem reads_labels_iff {fields : Fields} :
    Shape.labels.Reads (.obj fields) ↔ ∀ e ∈ fields, Shape.string.Reads e.2 := by
  have entries : Shape.labels.read (.obj fields) =
      (Shape.readEntries Shape.string.read fields).map Json.obj := rfl
  rw [Shape.Reads, entries]
  refine Iff.trans ?_ readEntries_ok_iff
  cases Shape.readEntries Shape.string.read fields <;> simp [Except.map]

theorem metadata_places : ∃ fields, Shape.metadata = .record fields ∧
    (∀ field ∈ fields, field.1 = "labels" → field.2.2 = Shape.labels) ∧
    (∀ field ∈ fields, field.1 = "resourceVersion" → field.2.2 = .string) :=
  ⟨_, rfl, by simp [Shape.opt], by simp [Shape.opt]⟩

/-- Metadata read with other labels and under another version. -/
theorem metadata_reads {given other : Fields} (reads : Shape.metadata.Reads (.obj given))
    (labels : ∀ v, Fields.find? "labels" other = some v → Shape.labels.Reads v)
    (version : ∀ v, Fields.find? "resourceVersion" other = some v → Shape.string.Reads v)
    (rest : ∀ key, key ≠ "labels" → key ≠ "resourceVersion" →
      Fields.find? key other = Fields.find? key given) : Shape.metadata.Reads (.obj other) := by
  obtain ⟨fields, same, labelsPlace, versionPlace⟩ := metadata_places
  rw [same, Shape.reads_record_iff] at reads ⊢
  intro field member v found
  by_cases atLabels : field.1 = "labels"
  · exact .inr (labelsPlace field member atLabels ▸ labels v (atLabels ▸ found))
  · by_cases atVersion : field.1 = "resourceVersion"
    · exact .inr (versionPlace field member atVersion ▸ version v (atVersion ▸ found))
    · exact reads field member v (rest field.1 atLabels atVersion ▸ found)

theorem labels_read {given : Fields} (reads : Shape.metadata.Reads (.obj given))
    (found : Fields.find? "labels" given = some v) : v = .null ∨ Shape.labels.Reads v := by
  obtain ⟨fields, same, -, member, -⟩ := Shape.metadata_parts
  rw [same, Shape.reads_record_iff] at reads
  exact reads _ member v found

/-- Labels that read do so with one of them set or removed. -/
theorem reads_labels_patch (found : v = .null ∨ Shape.labels.Reads v) {key : String} :
    Shape.labels.Reads (v.mergePatch (.obj [(key, text value)])) := by
  have given : ∀ e ∈ v.obj?.getD [], Shape.string.Reads e.2 := by
    rcases found with rfl | reads
    · simp [obj?]
    · cases v with
      | obj fields => exact reads_labels_iff.mp reads
      | _ => simp [obj?]
  cases value with
  | none =>
    simp only [mergePatch, mergeFields, text, Option.map_none, Option.getD_none, isNull, if_true]
    exact reads_labels_iff.mpr fun e member => given e (List.mem_of_mem_filter member)
  | some t =>
    simp only [mergePatch, mergeFields, text, Option.map_some, Option.getD_some, isNull,
      Bool.false_eq_true, if_false]
    refine reads_labels_iff.mpr fun e member => ?_
    rcases Fields.mem_insert member with rfl | old
    · exact ⟨_, rfl⟩
    · exact given e old

theorem relabelled_obj {n : Nat} {given inner : Fields}
    (found : Fields.find? "metadata" given = some (.obj inner)) :
    Server.withVersion n ((Json.obj given).mergePatch (labelPatch value)) =
      .obj (Fields.insert "metadata" (.obj (Fields.insert "resourceVersion" (.str (Text.decimal n))
        (Fields.insert "labels" (((Fields.find? "labels" inner).getD .null).mergePatch
          (.obj [(gatewayLabel, text value)])) inner))) given) := by
  have merged : (Json.obj given).mergePatch (labelPatch value) =
      .obj (Fields.insert "metadata" (.obj (Fields.insert "labels"
        (((Fields.find? "labels" inner).getD .null).mergePatch
          (.obj [(gatewayLabel, text value)])) inner)) given) := by
    rw [labelPatch, mergePatch_deeper rfl, get?_obj, found, Option.getD_some, mergePatch_deeper rfl]
    rfl
  rw [merged, Server.withVersion_obj Fields.find?_insert_self, Fields.insert_insert]

/-- A node that reads does so with its gateway label set or removed. -/
theorem reads_relabelled (value : Option String) (n : Nat) (named : Object.name? v = some x)
    (reads : Kind.node.Reads v) :
    Kind.node.Reads (Server.withVersion n (v.mergePatch (labelPatch value))) := by
  obtain ⟨w, read⟩ : ∃ w, Kind.node.readTyped v = .ok w := reads
  obtain ⟨given, -, rfl, -, -⟩ := Kind.readTyped_inv read
  obtain ⟨inner, found⟩ : ∃ inner, Fields.find? "metadata" given = some (.obj inner) := by
    rw [Object.name?, textAt?_pair, get?_obj] at named
    cases found : Fields.find? "metadata" given with
    | none => simp [found] at named
    | some m => cases m <;> simp_all [get?]
  obtain ⟨version, kind, each⟩ := Kind.readTyped_obj_iff.mp ⟨w, read⟩
  have metadata : Shape.metadata.Reads (.obj inner) :=
    (each (Shape.req "metadata" Shape.metadata) (List.mem_cons_self ..) _ found).resolve_left
      (by simp)
  rw [relabelled_obj found]
  refine Kind.readTyped_obj_iff.mpr ⟨?_, ?_, fun field member u present => ?_⟩
  · rwa [Fields.find?_insert_of_ne (by decide)]
  · rwa [Fields.find?_insert_of_ne (by decide)]
  · by_cases here : field.1 = "metadata"
    · rw [here, Fields.find?_insert_self] at present
      obtain rfl := Option.some.inj present
      rw [Kind.objectFields_metadata field member here]
      refine .inr (metadata_reads metadata ?_ ?_ ?_)
      · intro l labelled
        rw [Fields.find?_insert_of_ne (by decide), Fields.find?_insert_self] at labelled
        obtain rfl := Option.some.inj labelled
        refine reads_labels_patch ?_
        cases before : Fields.find? "labels" inner with
        | none => exact .inl rfl
        | some l => exact labels_read metadata before
      · intro u stamped
        rw [Fields.find?_insert_self] at stamped
        exact Shape.reads_string_iff.mpr ⟨_, (Option.some.inj stamped).symm⟩
      · intro key notLabels notVersion
        rw [Fields.find?_insert_of_ne notVersion, Fields.find?_insert_of_ne notLabels]
    · rw [Fields.find?_insert_of_ne here] at present
      exact each field member u present

def Readable (s : Server) : Prop := ∀ x v, nodes.at? x s = some v → Kind.node.Reads v

theorem readable_relabel (tidy : nodes.Tidy s) (readable : Readable s) :
    Readable (relabel value x s) := by
  intro y w found
  rw [relabel, serve_mergeRequest] at found
  cases stored : nodes.at? x s with
  | none =>
    rw [stored] at found
    exact readable y w found
  | some v =>
    simp only [stored] at found
    split at found
    · exact readable y w found
    · by_cases same : y = x
      · subst same
        have written : nodes.at? y (s.write (nodes.member y) (v.mergePatch (labelPatch value))).2 =
          some (Server.withVersion (s.version + 1) (v.mergePatch (labelPatch value))) :=
          Server.find?_write_self
        obtain rfl := Option.some.inj (written.symm.trans found)
        exact reads_relabelled _ _ (tidy.named y v stored) (readable y v stored)
      · refine readable y w (Eq.trans (Eq.symm ?_) found)
        exact Server.find?_write_of_ne fun clash => same (Collection.member_injective clash)

theorem tidy_relabel (tidy : nodes.Tidy s) : nodes.Tidy (relabel value x s) := by
  cases stored : nodes.at? x s with
  | none =>
    have same : relabel value x s = s := by rw [relabel, serve_mergeRequest, stored]
    exact same.symm ▸ tidy
  | some v => exact (relabelled_relabel _ stored).tidy tidy (Server.once_serve tidy.once)

/-! ### One node after the other -/

def relabelAll (value : Option String) (names : List String) (s : Server) : Server :=
  names.foldl (fun s x => relabel value x s) s

theorem relabelAll_append {names : List String} :
    relabelAll value (names ++ [x]) s = relabel value x (relabelAll value names s) := by
  simp [relabelAll]

theorem once_relabelAll (value : Option String) (names : List String) (once : s.objects.Once) :
    (relabelAll value names s).objects.Once := by
  induction names generalizing s with
  | nil => exact once
  | cons x rest ih => exact ih (Server.once_serve once)

theorem faults_relabelAll {names : List String} : (relabelAll value names s).faults = s.faults := by
  induction names generalizing s with
  | nil => rfl
  | cons x rest ih => exact ih.trans Server.faults_serve

theorem readable_relabelAll (value : Option String) (names : List String) (tidy : nodes.Tidy s)
    (readable : Readable s) :
    Readable (relabelAll value names s) := by
  induction names generalizing s with
  | nil => exact readable
  | cons x rest ih => exact ih (tidy_relabel tidy) (readable_relabel tidy readable)

theorem relabelled_relabelAll {names : List String}
    (stored : ∀ x ∈ names, ∃ v, nodes.at? x s = some v) :
    Relabelled value names.toFinset s (relabelAll value names s) := by
  induction names generalizing s with
  | nil => exact .refl
  | cons x rest ih =>
    obtain ⟨v, found⟩ := stored x (List.mem_cons_self ..)
    have first := relabelled_relabel value found
    have later := ih (s := relabel value x s) fun y member => by
      obtain ⟨u, there⟩ := stored y (List.mem_cons_of_mem _ member)
      obtain ⟨w, still, -⟩ := first.after there
      exact ⟨w, still⟩
    rw [List.toFinset_cons, Finset.insert_eq]
    exact first.trans later

end MultiCluster.Gateway
