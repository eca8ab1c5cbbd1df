import MultiCluster.Proofs.Reading
import MultiCluster.Proofs.Version

/-! Reading objects at their kinds. Whether an object reads does not depend on the version it was
stamped with, and what is read carries the version of what is stored. -/
namespace MultiCluster.Cluster

open Shape (FieldReads)

namespace Shape

theorem metadata_fields : ∃ fields, metadata = .record fields ∧ (fields.map (·.1)).Nodup ∧
    ("resourceVersion", false, Shape.string) ∈ fields ∧
    ∀ field ∈ fields, field.1 = "resourceVersion" → field.2.2 = .string := by
  refine ⟨_, rfl, by decide, by simp [opt], ?_⟩
  simp [opt]

theorem reads_string_iff {v : Json} : Shape.string.Reads v ↔ ∃ s, v = .str s := by
  cases v <;> simp [Reads, read, readText, mismatch]

theorem reads_metadata_insert {given : Fields} {a b : String}
    (reads : metadata.Reads (.obj (Fields.insert "resourceVersion" (.str a) given))) :
    metadata.Reads (.obj (Fields.insert "resourceVersion" (.str b) given)) := by
  obtain ⟨fields, same, -, -, string⟩ := metadata_fields
  rw [same, reads_record_iff] at reads ⊢
  intro field member v found
  by_cases here : field.1 = "resourceVersion"
  · rw [here, Fields.find?_insert_self] at found
    obtain rfl := Option.some.inj found
    exact .inr (string field member here ▸ reads_string_iff.mpr ⟨b, rfl⟩)
  · rw [Fields.find?_insert_of_ne here] at found
    exact reads field member v (by rwa [Fields.find?_insert_of_ne here])

theorem version_of_readMetadata {v w : Json} (ok : metadata.read v = .ok w) :
    (w.get? "resourceVersion").bind Json.str? = (v.get? "resourceVersion").bind Json.str? := by
  obtain ⟨fields, same, once, member, -⟩ := metadata_fields
  rw [same] at ok
  cases v with
  | obj given =>
    cases reading : readFields given fields with
    | error e => simp [Shape.read, reading, Except.map] at ok
    | ok read =>
      simp only [Shape.read, reading, Except.map, Except.ok.injEq] at ok
      subst ok
      have found := find?_of_readFields reading once member
      simp only [Json.get?]
      generalize Fields.find? "resourceVersion" (Fields.ofList read) = kept at found ⊢
      unfold readField at found
      cases given? : Fields.find? "resourceVersion" given with
      | none =>
        simp only [given?, Bool.false_eq_true, if_false, Except.ok.injEq] at found
        simp [← found]
      | some u =>
        cases u with
        | null =>
          simp only [given?, Bool.false_eq_true, if_false, Except.ok.injEq] at found
          simp [← found, Json.str?]
        | str s =>
          simp only [given?, Shape.read, readText, Except.map, Except.ok.injEq] at found
          simp [← found]
        | _ => simp [given?, Shape.read, readText, mismatch, Except.map] at found
  | _ => simp [Shape.read, mismatch] at ok

end Shape

namespace Kind

variable {k : Kind} {m n : Nat} {v w : Json} {given : Fields}

def Reads (k : Kind) (v : Json) : Prop := ∃ w, k.read v = .ok w

def isTyped (k : Kind) : Bool := k != .broker && k != .machineSet

theorem read_of_isTyped (typed : k.isTyped = true) : k.read v = k.readTyped v := by
  cases k <;> first | rfl | simp [isTyped] at typed

def objectFields (k : Kind) : List (String × Bool × Shape) :=
  Shape.req "metadata" Shape.metadata :: k.fields

theorem objectFields_once : (k.objectFields.map (·.1)).Nodup := by
  cases k <;> decide

theorem objectFields_metadata :
    ∀ field ∈ k.objectFields, field.1 = "metadata" → field.2.2 = Shape.metadata := by
  simp only [objectFields, List.forall_mem_cons]
  refine ⟨fun _ => rfl, ?_⟩
  have apart : ∀ name ∈ k.fields.map (·.1), name ≠ "metadata" := by cases k <;> decide
  exact fun field member same => absurd same (apart _ (List.mem_map_of_mem member))

theorem objectFields_stated : ∀ field ∈ k.objectFields, field.1 ≠ "apiVersion" ∧ field.1 ≠ "kind" := by
  cases k <;> decide

theorem readTyped_obj : k.readTyped (.obj given) =
    if agrees k.apiVersion (Fields.find? "apiVersion" given) &&
        agrees k.name (Fields.find? "kind" given) then
      (Shape.readFields given k.objectFields).map fun fields =>
        .obj (Fields.ofList (("apiVersion", .str k.apiVersion) :: ("kind", .str k.name) :: fields))
    else .error "expected another kind" :=
  rfl

theorem readTyped_obj_iff : (∃ w, k.readTyped (.obj given) = .ok w) ↔
    agrees k.apiVersion (Fields.find? "apiVersion" given) = true ∧
    agrees k.name (Fields.find? "kind" given) = true ∧
    ∀ field ∈ k.objectFields, FieldReads given field := by
  rw [← Shape.readFields_ok_iff, readTyped_obj]
  cases agrees k.apiVersion (Fields.find? "apiVersion" given) <;>
    cases agrees k.name (Fields.find? "kind" given) <;>
    cases Shape.readFields given k.objectFields <;> simp [Except.map]

theorem readTyped_inv (ok : k.readTyped v = .ok w) : ∃ given read, v = .obj given ∧
    Shape.readFields given k.objectFields = .ok read ∧ w = .obj (Fields.ofList
      (("apiVersion", .str k.apiVersion) :: ("kind", .str k.name) :: read)) := by
  cases v with
  | obj given =>
    rw [readTyped_obj] at ok
    split at ok
    · cases reading : Shape.readFields given k.objectFields with
      | error e => simp [reading, Except.map] at ok
      | ok read =>
        simp only [reading, Except.map, Except.ok.injEq] at ok
        exact ⟨given, read, rfl, reading, ok.symm⟩
    · simp at ok
  | _ => simp [readTyped] at ok

theorem find?_of_readTyped {name : String} {required : Bool} {s : Shape}
    (ok : k.readTyped (.obj given) = .ok w) (member : (name, required, s) ∈ k.objectFields) :
    Shape.readField given name required s = .ok (w.get? name) := by
  obtain ⟨_, read, same, reading, rfl⟩ := readTyped_inv ok
  obtain rfl := Json.obj.inj same
  rw [Shape.find?_of_readFields reading objectFields_once member]
  obtain ⟨notVersion, notKind⟩ := objectFields_stated _ member
  simp only [Json.get?, Fields.find?_ofList, List.reverse_cons, List.append_assoc,
    Fields.find?_append]
  simp [Fields.find?, notVersion.symm, notKind.symm]

theorem part_of_readTyped {name : String} {required : Bool} {s : Shape} {part : Json}
    (ok : k.readTyped v = .ok w) (member : (name, required, s) ∈ k.objectFields)
    (found : v.get? name = some part) (present : part ≠ .null) :
    ∃ u, s.read part = .ok u ∧ w.get? name = some u := by
  obtain ⟨given, -, rfl, -, -⟩ := readTyped_inv ok
  exact Shape.part_of_readField (find?_of_readTyped ok member) found present

theorem version?_of_readTyped (ok : k.readTyped v = .ok w) :
    Object.version? w = Server.versionOf v := by
  obtain ⟨given, -, rfl, -, -⟩ := readTyped_inv ok
  have kept := find?_of_readTyped (s := Shape.metadata) ok (List.mem_cons_self ..)
  have emptyVersion : (Shape.metadata.empty.get? "resourceVersion").bind Json.str? = none := by
    decide
  rw [show Object.version? w = Server.versionOf w from rfl, Server.versionOf_eq,
    Server.versionOf_eq, Json.get?]
  cases found : Fields.find? "metadata" given with
  | none =>
    rw [Shape.readField_of_absent (.inl found)] at kept
    simp [← Except.ok.inj kept, emptyVersion]
  | some metadata =>
    by_cases null : metadata = .null
    · subst null
      rw [Shape.readField_of_absent (.inr found)] at kept
      rw [← Except.ok.inj kept]
      exact emptyVersion
    · rw [Shape.readField_of_find? found null] at kept
      cases reading : Shape.metadata.read metadata with
      | error e => simp [reading, Except.map] at kept
      | ok read =>
        rw [reading] at kept
        rw [← Except.ok.inj kept]
        exact Shape.version_of_readMetadata reading

theorem readBroker_inv (ok : readBroker v = .ok w) : ∃ metadata spec read s,
    v.get? "metadata" = some metadata ∧ v.get? "spec" = some spec ∧
    Shape.metadata.read metadata = .ok read ∧ BrokerSpec.ofJson spec = .ok s ∧
    w = .obj [("apiVersion", .str broker.apiVersion), ("kind", .str broker.name),
      ("metadata", read), ("spec", s.toJson)] := by
  unfold readBroker at ok
  split at ok
  · next metadata spec found given =>
    cases reading : Shape.metadata.read metadata with
    | error e => simp [reading, bind, Except.bind] at ok
    | ok read =>
      cases specRead : BrokerSpec.ofJson spec with
      | error e => simp [reading, specRead, bind, Except.bind] at ok
      | ok s =>
        simp only [reading, specRead, bind, Except.bind, pure, Except.pure, Except.ok.injEq] at ok
        exact ⟨metadata, spec, read, s, found, given, reading, specRead, ok.symm⟩
  · simp at ok

theorem readBroker_ok {metadata spec read : Json} {s : BrokerSpec}
    (found : v.get? "metadata" = some metadata) (given : v.get? "spec" = some spec)
    (reading : Shape.metadata.read metadata = .ok read) (specRead : BrokerSpec.ofJson spec = .ok s) :
    readBroker v = .ok (.obj [("apiVersion", .str broker.apiVersion), ("kind", .str broker.name),
      ("metadata", read), ("spec", s.toJson)]) := by
  simp [readBroker, found, given, reading, specRead, bind, Except.bind, pure, Except.pure]

theorem version?_of_readBroker (ok : readBroker v = .ok w) :
    Object.version? w = Server.versionOf v := by
  obtain ⟨metadata, spec, read, s, found, -, reading, -, rfl⟩ := readBroker_inv ok
  rw [show Object.version? _ = Server.versionOf _ from rfl, Server.versionOf_eq,
    Server.versionOf_eq, found]
  exact Shape.version_of_readMetadata reading

theorem version?_of_read (notMachineSet : k ≠ .machineSet) (ok : k.read v = .ok w) :
    Object.version? w = Server.versionOf v := by
  by_cases broker : k = .broker
  · subst broker
    exact version?_of_readBroker ok
  · rw [read_of_isTyped (by simp [isTyped, broker, notMachineSet])] at ok
    exact version?_of_readTyped ok

theorem readsBroker_withVersion (ok : Object.HasMetadata v)
    (reads : ∃ w, readBroker (Server.withVersion m v) = .ok w) :
    ∃ w, readBroker (Server.withVersion n v) = .ok w := by
  obtain ⟨given, metadata, rfl, found⟩ := ok
  obtain ⟨w, read⟩ := reads
  obtain ⟨_, spec, _, s, stamped, specFound, reading, specRead, -⟩ := readBroker_inv read
  rw [Server.withVersion_obj found] at stamped specFound ⊢
  simp only [Json.get?, Fields.find?_insert_self, Option.some.injEq] at stamped
  subst stamped
  obtain ⟨again, readAgain⟩ :=
    Shape.reads_metadata_insert (b := Text.decimal n) ⟨_, reading⟩
  refine ⟨_, readBroker_ok ?_ ?_ readAgain specRead⟩
  · simp only [Json.get?, Fields.find?_insert_self]
  · simpa [Json.get?, Fields.find?_insert_of_ne] using specFound

theorem readsTyped_withVersion (ok : Object.HasMetadata v)
    (reads : ∃ w, k.readTyped (Server.withVersion m v) = .ok w) :
    ∃ w, k.readTyped (Server.withVersion n v) = .ok w := by
  obtain ⟨given, metadata, rfl, found⟩ := ok
  rw [Server.withVersion_obj found, readTyped_obj_iff] at reads ⊢
  obtain ⟨version, kind, each⟩ := reads
  rw [Fields.find?_insert_of_ne (by decide)] at version kind
  refine ⟨by rwa [Fields.find?_insert_of_ne (by decide)],
    by rwa [Fields.find?_insert_of_ne (by decide)], fun field member u present => ?_⟩
  by_cases here : field.1 = "metadata"
  · have stamped := each field member _ (by rw [here, Fields.find?_insert_self])
    rw [here, Fields.find?_insert_self] at present
    obtain rfl := Option.some.inj present
    rw [objectFields_metadata field member here] at stamped ⊢
    exact .inr (Shape.reads_metadata_insert (stamped.resolve_left (by simp)))
  · rw [Fields.find?_insert_of_ne here] at present
    exact each field member u (by rwa [Fields.find?_insert_of_ne here])

/-- An object reads under every version if it does under one. -/
theorem reads_withVersion (notMachineSet : k ≠ .machineSet) (ok : Object.HasMetadata v)
    (reads : k.Reads (Server.withVersion m v)) : k.Reads (Server.withVersion n v) := by
  by_cases broker : k = .broker
  · subst broker
    exact readsBroker_withVersion ok reads
  · have typed : k.isTyped = true := by simp [isTyped, broker, notMachineSet]
    unfold Reads at reads ⊢
    simp only [read_of_isTyped typed] at reads ⊢
    exact readsTyped_withVersion ok reads

end Kind
end MultiCluster.Cluster
