import MultiCluster.Gateway.Nodes
import MultiCluster.Proofs.Listing

/-! What is read of a node. Reading at its kind keeps everything that decides about gateways: the
name, the labels and the conditions. -/
namespace MultiCluster.Cluster.Shape

variable {given : Fields} {name : String} {required : Bool} {v w : Json} {kept : Option Json}

theorem read_string_eq (ok : Shape.string.read v = .ok w) : w = v ∧ ∃ t, v = .str t := by
  cases v with
  | str t =>
    obtain rfl : Json.str t = w := Except.ok.inj ok
    exact ⟨rfl, t, rfl⟩
  | _ => simp [Shape.read, readText, mismatch] at ok

/-- Of a text field everything is kept but what stands for nothing. -/
theorem text_of_readField (ok : readField given name required .string = .ok kept) :
    kept.bind Json.str? = ((Fields.find? name given).bind Json.str?).or
      (if required then some "" else none) := by
  cases found : Fields.find? name given with
  | none =>
    rw [readField_of_absent (.inl found)] at ok
    rw [← Except.ok.inj ok]
    cases required <;> rfl
  | some u =>
    by_cases null : u = .null
    · subst null
      rw [readField_of_absent (.inr found)] at ok
      rw [← Except.ok.inj ok]
      cases required <;> rfl
    · obtain ⟨w, read, rfl⟩ := part_of_readField ok found null
      obtain ⟨rfl, t, rfl⟩ := read_string_eq read
      rfl

theorem readEntries_string {fields read : Fields}
    (ok : readEntries Shape.string.read fields = .ok read) : read = fields := by
  induction fields generalizing read with
  | nil => exact (Except.ok.inj ok).symm
  | cons head rest ih =>
    obtain ⟨key, v⟩ := head
    cases first : Shape.string.read v with
    | error e => simp [readEntries, first, bind, Except.bind] at ok
    | ok w =>
      cases later : readEntries Shape.string.read rest with
      | error e => simp [readEntries, first, later, bind, Except.bind] at ok
      | ok others =>
        simp only [readEntries, first, later, bind, Except.bind, pure, Except.pure,
          Except.ok.injEq] at ok
        rw [← ok, ih later, (read_string_eq first).1]

theorem read_labels_eq (ok : labels.read v = .ok w) : w = v := by
  cases v with
  | obj fields =>
    have entries : labels.read (.obj fields) =
        (readEntries Shape.string.read fields).map Json.obj := rfl
    rw [entries] at ok
    cases reading : readEntries Shape.string.read fields with
    | error e => simp [reading, Except.map] at ok
    | ok read =>
      rw [reading] at ok
      rw [← Except.ok.inj ok, readEntries_string reading]
  | _ => simp [labels, Shape.read, mismatch] at ok

theorem metadata_parts : ∃ fields, metadata = .record fields ∧ (fields.map (·.1)).Nodup ∧
    ("labels", false, labels) ∈ fields ∧ ("name", false, Shape.string) ∈ fields :=
  ⟨_, rfl, by decide, by simp [opt], by simp [opt]⟩

/-- Of an object's metadata the name and the labels are kept. -/
theorem metadata_kept (ok : metadata.read v = .ok w) :
    (w.get? "name").bind Json.str? = (v.get? "name").bind Json.str? ∧
      ∀ key, ((w.get? "labels").bind fun l => l.get? key) =
        (v.get? "labels").bind fun l => l.get? key := by
  obtain ⟨fields, same, once, labelsField, nameField⟩ := metadata_parts
  rw [same] at ok
  cases v with
  | obj inner =>
    constructor
    · rw [text_of_readField (get?_of_read_record ok once nameField)]
      simp [Json.get?]
    · intro key
      have kept := get?_of_read_record ok once labelsField
      cases found : Fields.find? "labels" inner with
      | none =>
        rw [readField_of_absent (.inl found)] at kept
        rw [← Except.ok.inj kept, Json.get?_obj, found]
        rfl
      | some l =>
        by_cases null : l = .null
        · subst null
          rw [readField_of_absent (.inr found)] at kept
          rw [← Except.ok.inj kept, Json.get?_obj, found]
          rfl
        · obtain ⟨u, read, here⟩ := part_of_readField kept found null
          rw [here, read_labels_eq read, Json.get?_obj, found]
  | _ => simp [Shape.read, mismatch] at ok

end MultiCluster.Cluster.Shape

namespace MultiCluster.Gateway

open Cluster

variable {v w : Json} {key : String}

def gatewayPath : List String := ["metadata", "labels", gatewayLabel]

theorem at?_label : v.at? ["metadata", "labels", key] =
    ((v.get? "metadata").bind fun m => m.get? "labels").bind fun l => l.get? key := by
  simp only [Json.at?, Option.bind_assoc, Option.bind_fun_some]

/-- Reading a node keeps its name and its labels. -/
theorem labels_of_read (ok : Kind.node.read v = .ok w) : Object.name? w = Object.name? v ∧
    ∀ key, w.at? ["metadata", "labels", key] = v.at? ["metadata", "labels", key] := by
  have typed : Kind.node.readTyped v = .ok w := ok
  obtain ⟨given, -, rfl, -, -⟩ := Kind.readTyped_inv typed
  have kept := Kind.find?_of_readTyped (s := Shape.metadata) typed (List.mem_cons_self ..)
  simp only [Object.name?, Json.textAt?_pair, at?_label]
  by_cases absent : Fields.find? "metadata" given = none ∨
      Fields.find? "metadata" given = some .null
  · rw [Shape.readField_of_absent absent] at kept
    have blank : w.get? "metadata" = some (.obj []) := (Except.ok.inj kept).symm
    rw [blank, Json.get?_obj]
    rcases absent with absent | absent
    · rw [absent]
      exact ⟨rfl, fun _ => rfl⟩
    · rw [absent]
      exact ⟨rfl, fun _ => rfl⟩
  · obtain ⟨missing, present⟩ := not_or.mp absent
    obtain ⟨m, found⟩ := Option.ne_none_iff_exists'.mp missing
    obtain ⟨u, read, here⟩ := Shape.part_of_readField kept found (by
      rintro rfl
      exact present found)
    obtain ⟨name, labels⟩ := Shape.metadata_kept read
    rw [here, Json.get?_obj, found]
    exact ⟨name, fun key => labels key⟩

/-- The text under a key, where it is not empty, is kept by a record that reads texts there. -/
theorem text_iff_of_read {fields : List (String × Bool × Shape)} {name t : String} {required : Bool}
    (ok : (Shape.record fields).read v = .ok w) (once : (fields.map (·.1)).Nodup)
    (member : (name, required, Shape.string) ∈ fields) (given : t ≠ "") :
    w.textAt? [name] = some t ↔ v.textAt? [name] = some t := by
  cases v with
  | obj inner =>
    have kept := Shape.text_of_readField (Shape.get?_of_read_record ok once member)
    rw [Json.textAt?_single, Json.textAt?_single, kept, Json.get?_obj]
    cases (Fields.find? name inner).bind Json.str? with
    | some u => simp
    | none => cases required <;> simp [Ne.symm given]
  | _ => simp [Shape.read, Shape.mismatch] at ok

def saysReady (c : Json) : Bool :=
  c.textAt? ["type"] == some "Ready" && c.textAt? ["status"] == some "True"

theorem saysReady_of_read {extra : List (String × Bool × Shape)}
    (once : (([Shape.opt "lastTransitionTime" .timestamp, Shape.opt "message" .string,
      Shape.opt "reason" .string, Shape.req "status" .string, Shape.req "type" .string] ++
      extra).map (·.1)).Nodup)
    (ok : (Shape.condition extra).read v = .ok w) : saysReady w = saysReady v := by
  have typed := text_iff_of_read (t := "Ready") ok once
    (show ("type", true, Shape.string) ∈ _ by simp [Shape.req]) (by decide)
  have stated := text_iff_of_read (t := "True") ok once
    (show ("status", true, Shape.string) ∈ _ by simp [Shape.req]) (by decide)
  rw [saysReady, saysReady, Bool.eq_iff_iff]
  simp only [Bool.and_eq_true, beq_iff_eq, typed, stated]

theorem any_of_readItems {read : Json → Except String Json} {P : Json → Bool} {items kept : List Json}
    (each : ∀ v w, read v = .ok w → P w = P v) (ok : Shape.readItems read items = .ok kept) :
    kept.any P = items.any P := by
  induction items generalizing kept with
  | nil => rw [← Except.ok.inj ok]
  | cons head rest ih =>
    cases first : read head with
    | error e => simp [Shape.readItems, first, bind, Except.bind] at ok
    | ok w =>
      cases later : Shape.readItems read rest with
      | error e => simp [Shape.readItems, first, later, bind, Except.bind] at ok
      | ok others =>
        simp only [Shape.readItems, first, later, bind, Except.bind, pure, Except.pure,
          Except.ok.injEq] at ok
        rw [← ok, List.any_cons, List.any_cons, each _ _ first, ih later]

theorem itemsAt_pair {a b : String} : v.itemsAt [a, b] =
    (((v.get? a).bind fun m => m.get? b).bind Json.arr?).getD [] := by
  simp only [Json.itemsAt, Json.at?, Option.bind_fun_some]

/-- An optional part that is kept, or stands for nothing. -/
theorem part_cases {given : Fields} {name : String} {s : Shape} {kept : Option Json}
    (ok : Shape.readField given name false s = .ok kept) :
    (kept = none ∧ (Fields.find? name given = none ∨ Fields.find? name given = some .null)) ∨
      ∃ v u, Fields.find? name given = some v ∧ s.read v = .ok u ∧ kept = some u := by
  by_cases absent : Fields.find? name given = none ∨ Fields.find? name given = some .null
  · rw [Shape.readField_of_absent absent] at ok
    exact .inl ⟨(Except.ok.inj ok).symm, absent⟩
  · obtain ⟨missing, present⟩ := not_or.mp absent
    obtain ⟨v, found⟩ := Option.ne_none_iff_exists'.mp missing
    obtain ⟨u, read, here⟩ := Shape.part_of_readField ok found (by
      rintro rfl
      exact present found)
    exact .inr ⟨v, u, found, read, here⟩

theorem conditions_of_read (ok : Shape.nodeStatus.read v = .ok w) :
    (((w.get? "conditions").bind Json.arr?).getD []).any saysReady =
      (((v.get? "conditions").bind Json.arr?).getD []).any saysReady := by
  cases v with
  | obj inner =>
    have kept := Shape.get?_of_read_record ok (by decide) (show ("conditions", false,
      Shape.list (Shape.condition [Shape.opt "lastHeartbeatTime" .timestamp])) ∈ _ by
        simp [Shape.opt])
    rcases part_cases kept with ⟨gone, absent⟩ | ⟨c, u, found, read, here⟩
    · rw [gone, Json.get?_obj]
      rcases absent with absent | absent
      · rw [absent]
      · rw [absent]
        rfl
    · rw [here, Json.get?_obj, found]
      cases c with
      | arr items =>
        have items_read : (Shape.list (Shape.condition [Shape.opt "lastHeartbeatTime" .timestamp])).read
            (.arr items) = (Shape.readItems (Shape.condition
              [Shape.opt "lastHeartbeatTime" .timestamp]).read items).map Json.arr := rfl
        rw [items_read] at read
        cases reading : Shape.readItems (Shape.condition
            [Shape.opt "lastHeartbeatTime" .timestamp]).read items with
        | error e => simp [reading, Except.map] at read
        | ok others =>
          rw [reading] at read
          rw [← Except.ok.inj read]
          exact any_of_readItems (fun _ _ => saysReady_of_read (by decide)) reading
      | _ => simp [Shape.read, Shape.mismatch] at read
  | _ => simp [Shape.nodeStatus, Shape.read, Shape.mismatch] at ok

/-- Reading a node keeps whether it is ready. -/
theorem isReady_of_read (ok : Kind.node.read v = .ok w) : isReady w = isReady v := by
  have typed : Kind.node.readTyped v = .ok w := ok
  obtain ⟨given, -, rfl, -, -⟩ := Kind.readTyped_inv typed
  have kept := Kind.find?_of_readTyped typed (show ("status", false, Shape.nodeStatus) ∈
    Kind.node.objectFields by simp [Kind.objectFields, Kind.fields, Shape.opt])
  show (Json.itemsAt _ _).any saysReady = (Json.itemsAt _ _).any saysReady
  rw [itemsAt_pair, itemsAt_pair]
  rcases part_cases kept with ⟨gone, absent⟩ | ⟨v, u, found, read, here⟩
  · rw [gone, Json.get?_obj]
    rcases absent with absent | absent
    · rw [absent]
    · rw [absent]
      rfl
  · rw [here, Json.get?_obj, found]
    exact conditions_of_read read

def Lasting (P : Json → Bool) : Prop := ∀ v w, Kind.node.read v = .ok w → P w = P v

theorem lasting_isGateway : Lasting isGateway := by
  intro v w ok
  rw [isGateway, isGateway, Object.label?, Object.label?, Json.textAt?, Json.textAt?,
    (labels_of_read ok).2]

theorem lasting_isCandidate : Lasting isCandidate := by
  intro v w ok
  have labels : (fun l => Object.hasLabel l w) = fun l => Object.hasLabel l v := by
    funext l
    rw [Object.hasLabel, Object.hasLabel, (labels_of_read ok).2]
  rw [isCandidate, isCandidate, lasting_isGateway v w ok, labels, isReady_of_read ok]

/-- The names of the nodes that a lasting condition is true of, as they were listed. -/
theorem names_of_read {P : Json → Bool} (lasting : Lasting P) {items all : List Json}
    (read : List.Forall₂ (fun v w => Kind.node.read v = .ok w) items all) :
    (all.filter P).filterMap Object.name? = (items.filter P).filterMap Object.name? := by
  induction read with
  | nil => rfl
  | cons ok rest ih =>
    rw [List.filter_cons, List.filter_cons, lasting _ _ ok]
    split
    · rw [List.filterMap_cons, List.filterMap_cons, (labels_of_read ok).1, ih]
    · exact ih

end MultiCluster.Gateway
