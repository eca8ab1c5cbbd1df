import MultiCluster.Proofs.Decided
import MultiCluster.Proofs.Relabelling

/-! What becomes of the rest of a config map when the record in it is rewritten. The map is made
anew from the record and not edited, so labels, annotations and entries that others have put there
are lost. -/
namespace MultiCluster.Cluster.Upsert

open Server (Exchange)

variable {u : Upsert} {s : Server}

/-- What is updated was read, would not do, and was written over. -/
theorem Sound.updated (sound : u.Sound) : u.work.run.Meets Exchange Eq (fun _ _ => True)
    (fun result s' => result = .ok .updated →
      (∃ v w, s.objects.find? u.path = some v ∧ u.collection.kind.read v = .ok w ∧
        u.keeps w = .ok false ∧ WroteWell u.collection u.name (u.replacement w) s') ∧
      ∀ p, p ≠ u.path → s'.objects.find? p = s.objects.find? p) s := by
  have written : u.work.run.Meets Exchange Eq (fun _ _ => True) (fun result s' =>
      result = .ok .updated → ∃ v w, s.objects.find? u.path = some v ∧
        u.collection.kind.read v = .ok w ∧ u.keeps w = .ok false ∧
        WroteWell u.collection u.name (u.replacement w) s') s := by
    refine Sound.meets_work trivial (by simp) ?_ fun v w found reading => ?_
    · refine meets_bind ((meets_create sound.named rfl).mono (fun _ _ _ => trivial) ?_)
      rintro result s' -
      cases result with
      | error e => simp
      | ok w => exact fun created => by cases created
    · simp only [settle]
      cases kept : u.keeps w with
      | error e => exact fun refused => by cases refused
      | ok will =>
        cases will with
        | true => exact fun unchanged => by cases unchanged
        | false =>
          refine meets_bind ((meets_replace rfl).mono (fun _ _ _ => trivial) ?_)
          rintro result s' ⟨-, wrote⟩
          cases result with
          | error e => simp
          | ok w' => exact fun _ => ⟨v, w, found, reading, kept, wrote w' rfl⟩
  exact (written.and (errand_lawful sound).elsewhere).mono (fun _ _ _ => trivial)
    fun result s' both updated => ⟨both.1 updated, both.2⟩

end MultiCluster.Cluster.Upsert

namespace MultiCluster.Globalnet.Record

open Cluster
open Server (Exchange withVersion)

variable {ns key : String} {n : Nat} {v v' : Json} {r desired : Record} {s s' : Server}

def settingKeys : List String := [enabledKey, rangeKey, sizeKey]

/-- The second map has the labels, the annotations and, the settings apart, the entries of the first
one. -/
structure SameRest (v v' : Json) : Prop where
  labels : ∀ key, v'.at? ["metadata", "labels", key] = v.at? ["metadata", "labels", key]
  annotations : ∀ key,
    v'.at? ["metadata", "annotations", key] = v.at? ["metadata", "annotations", key]
  entries : ∀ key, key ∉ settingKeys → v'.at? ["data", key] = v.at? ["data", key]

structure Plain (v : Json) : Prop where
  unlabelled : ∀ key, v.at? ["metadata", "labels", key] = none
  unannotated : ∀ key, v.at? ["metadata", "annotations", key] = none
  alone : v.at? ["data", clustersKey] = some (.str (clustersText []))
  unshared : ∀ key, key ∉ settingKeys → key ≠ clustersKey → v.at? ["data", key] = none

/-- Everything around the settings is the same on a plain map exactly if the other one is plain. -/
theorem Plain.sameRest_iff (plain : Plain v') : SameRest v v' ↔ Plain v := by
  constructor
  · intro same
    exact ⟨fun key => (same.labels key).symm.trans (plain.unlabelled key),
      fun key => (same.annotations key).symm.trans (plain.unannotated key),
      (same.entries _ (by decide)).symm.trans plain.alone,
      fun key other apart => (same.entries key other).symm.trans (plain.unshared key other apart)⟩
  · intro plain'
    refine ⟨fun key => (plain.unlabelled key).trans (plain'.unlabelled key).symm,
      fun key => (plain.unannotated key).trans (plain'.unannotated key).symm, fun key other => ?_⟩
    by_cases members : key = clustersKey
    · exact members ▸ plain.alone.trans plain'.alone.symm
    · exact (plain.unshared key other members).trans (plain'.unshared key other members).symm

theorem metadata_toConfigMap {field : String} (other : field ≠ "name" ∧ field ≠ "namespace") :
    (r.toConfigMap ns).at? ["metadata", field, key] = none := by
  have metadata : (r.toConfigMap ns).get? "metadata" =
      some (.obj (Fields.ofList (Object.named mapName ns))) :=
    Kind.get?_object_metadata further_data
  simp [Json.at?, metadata, Json.get?_obj, Object.named, Fields.find?_ofList, Fields.find?,
    other.1.symm, other.2.symm]

theorem entry_toConfigMap : (r.toConfigMap ns).at? ["data", key] = Fields.find? key r.entries := by
  simp [Json.at?, data_toConfigMap, Json.get?_obj]

/-- The map of a record without members is plain. -/
theorem plain_toConfigMap (alone : r.clusters = []) :
    Plain (withVersion n (r.toConfigMap ns)) where
  unlabelled key := (Server.at?_withVersion (by simp [versionPath])).trans
    (metadata_toConfigMap (by decide))
  unannotated key := (Server.at?_withVersion (by simp [versionPath])).trans
    (metadata_toConfigMap (by decide))
  alone := by
    rw [Server.at?_withVersion (by simp [versionPath]), entry_toConfigMap, entries, alone]
    simp [Fields.find?_ofList, Fields.find?]
  unshared key other apart := by
    rw [Server.at?_withVersion (by simp [versionPath]), entry_toConfigMap, entries]
    simp only [settingKeys, List.mem_cons, List.not_mem_nil, or_false, not_or] at other
    obtain ⟨notEnabled, notRange, notSize⟩ := other
    simp [Fields.find?_ofList, Fields.find?, Ne.symm notEnabled, Ne.symm notRange, Ne.symm notSize,
      Ne.symm apart]

/-- Rewriting a record, on a server that may fail, sets what is desired and keeps the blocks that
are held, and changes no other object. But the map in which the record is kept is then one that
holds nothing beside the record, so its labels, annotations and other entries are what they were
exactly if there was nothing to be lost: none of them, and the members as an update writes them. -/
theorem rewritten_anew (ns : String) (desired : Record) {s s' : Server}
    (ran : Program.Leads Exchange (ensureStored ns desired).run s (.done (.ok .updated)) s') :
    ∃ v v' r, s.objects.find? (path ns) = some v ∧ held? ns s = some r ∧
      checkExisting (some r) desired ns = .ok .update ∧
      s'.objects.find? (path ns) = some v' ∧
      held? ns s' = some { desired with clusters := r.clusters } ∧
      (∃ n, v' = withVersion n ({ desired with clusters := r.clusters }.toConfigMap ns)) ∧
      Plain v' ∧ (SameRest v v' ↔ Plain v) ∧
      ∀ p, p ≠ path ns → s'.objects.find? p = s.objects.find? p := by
  rw [ensureStored_eq] at ran
  have sound : (upsert ns desired).Sound := upsert_sound
  obtain ⟨⟨v, w, found, reading, wanting, n, written, w', reading'⟩, elsewhere⟩ :=
    Program.Meets.result sound.updated ran rfl
  obtain ⟨r, read, alone⟩ := alone_of_wanting wanting
  rw [replacement_eq wanting, withVersion_bound, ← alone] at written reading'
  have held : held? ns s = some r := held?_eq_some_iff.mpr ⟨v, w, found, reading, read⟩
  have held' : held? ns s' = some { desired with clusters := r.clusters } :=
    held?_eq_some_iff.mpr ⟨_, w', written, reading', ofConfigMap_of_read reading'⟩
  have plain : Plain (withVersion n ({ desired with clusters := r.clusters }.toConfigMap ns)) :=
    plain_toConfigMap alone
  exact ⟨v, _, r, found, held, judged_of_keeps read wanting, written, held', ⟨n, rfl⟩, plain,
    plain.sameRest_iff, elsewhere⟩

def holding (v : Json) : Server := ⟨[(path "broker", v)], [], 100, []⟩

def resizing (v : Json) : Option (Except Error Outcome) × Server :=
  runOn (holding v) (ensureStored "broker" resizedRecord)

/-- A map in which there is a record and nothing else is no different around the new size. -/
theorem rewritten_alone :
    (resizing (withVersion 7 (freshRecord.toConfigMap "broker"))).1 = some (.ok .updated) ∧
    ∃ v', (resizing (withVersion 7 (freshRecord.toConfigMap "broker"))).2.objects.find?
        (path "broker") = some v' ∧
      ofStored? (some v') = some resizedRecord ∧
      SameRest (withVersion 7 (freshRecord.toConfigMap "broker")) v' := by
  have came : (resizing (withVersion 7 (freshRecord.toConfigMap "broker"))).1 =
      some (.ok .updated) := by decide +kernel
  have before : held? "broker" (holding (withVersion 7 (freshRecord.toConfigMap "broker"))) =
      some freshRecord := by decide +kernel
  obtain ⟨v, v', r, found, held, -, written, held', -, -, kept, -⟩ :=
    rewritten_anew "broker" resizedRecord (leads_of_runOn rfl (Prod.ext came rfl))
  obtain rfl : withVersion 7 (freshRecord.toConfigMap "broker") = v := Option.some.inj found
  obtain rfl : freshRecord = r := Option.some.inj (before.symm.trans held)
  rw [held?, written] at held'
  exact ⟨came, v', written, held', kept.mpr (plain_toConfigMap rfl)⟩

def sharedMap : Json := Kind.configMap.object
  (("labels", .obj [("team", .str "network")]) ::
    ("annotations", .obj [("reviewed", .str "yes")]) ::
    ("resourceVersion", .str "7") :: Object.named mapName "broker")
  [("data", .obj (Fields.ofList (("owner", .str "west") :: freshRecord.entries)))]

/-- What others have added does not outlive a new size. -/
theorem rewritten_over_others :
    (resizing sharedMap).1 = some (.ok .updated) ∧
    sharedMap.at? ["metadata", "labels", "team"] = some (.str "network") ∧
    sharedMap.at? ["metadata", "annotations", "reviewed"] = some (.str "yes") ∧
    sharedMap.at? ["data", "owner"] = some (.str "west") ∧
    ∃ v', (resizing sharedMap).2.objects.find? (path "broker") = some v' ∧
      v'.at? ["metadata", "labels", "team"] = none ∧
      v'.at? ["metadata", "annotations", "reviewed"] = none ∧
      v'.at? ["data", "owner"] = none ∧ ¬SameRest sharedMap v' := by
  have label : sharedMap.at? ["metadata", "labels", "team"] = some (.str "network") := by
    decide +kernel
  have lost : (withVersion 101 (resizedRecord.toConfigMap "broker")).at?
      ["metadata", "labels", "team"] = none := by decide +kernel
  refine ⟨by decide +kernel, label, by decide +kernel, by decide +kernel, _, by decide +kernel,
    lost, by decide +kernel, by decide +kernel, fun same => ?_⟩
  cases label.symm.trans ((same.labels "team").symm.trans lost)

end MultiCluster.Globalnet.Record
