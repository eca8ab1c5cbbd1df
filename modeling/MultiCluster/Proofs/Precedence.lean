import MultiCluster.Gateway.Openstack.Resolution
import MultiCluster.Proofs.Operations
import MultiCluster.Proofs.Sources
import MultiCluster.Yaml.Document

/-! Which source an OpenStack setting is taken from. Each setting has its sources in an order, and
is the first value among them that is not blank. The metadata file, if one is named, takes the place
of the flags for infra ID and project ID, and of several `clouds.yaml` only the first is read. -/
namespace MultiCluster.Gateway.Openstack

open Files (Tree)

variable {yaml : Yaml.Reader} {files : Tree} {searchPath : List String} {c : Config} {r : Settings}
  {cloud : Cloud} {infra project v : Option String} {sources rest : List (Option String)}
  {name s : String}

inductive FirstGiven : List (Option String) → Option String → Prop
  | nowhere : FirstGiven [] none
  | here {s : String} {rest : List (Option String)} (visible : Text.blank s = false) :
      FirstGiven (some s :: rest) (some s)
  | later {v given : Option String} {rest : List (Option String)}
      (hidden : ∀ s, v = some s → Text.blank s = true) (first : FirstGiven rest given) :
      FirstGiven (v :: rest) given

/-- The values for infra ID and project ID: the metadata file's if one is named, and the flags'
otherwise. -/
inductive Identity (files : Tree) (c : Config) : Option String → Option String → Prop
  | flags (unnamed : c.metadataFile = none) : Identity files c c.infraId c.projectId
  | metadata {path text : String} {d : Json.Document} {m : Metadata}
      (named : c.metadataFile = some path) (read : files.read path = .ok text)
      (parsed : Json.Document.parse? text = some d) (described : Metadata.Describes d m) :
      Identity files c (some m.infraId) (some m.projectId)

/-- The cloud of a name in the first file of a search path that exists. It has an `auth_url`, which
is not looked at. -/
structure FirstCloud (yaml : Yaml.Reader) (files : Tree) (searchPath : List String)
    (name : String) (cloud : Cloud) : Prop where
  authorized : cloud.authUrl ≠ none
  found : ∃ before path after text n clouds, searchPath = before ++ path :: after ∧
    (∀ p ∈ before, files.isFile p = false) ∧ files.isFile path = true ∧
    files.read path = .ok text ∧ yaml.document? text = some n ∧ Cloud.Lists n clouds ∧
    ∃ earlier later, clouds = earlier ++ (name, cloud) :: later ∧ ∀ e ∈ later, e.1 ≠ name

structure Composed (c : Config) (infra project : Option String) (cloud : Cloud) (r : Settings) :
    Prop where
  infraId : FirstGiven [infra] (some r.infraId)
  projectId : FirstGiven [project, cloud.projectId] r.projectId
  region : FirstGiven [c.region, cloud.regionName] (some r.region)
  cloudEntry : FirstGiven [c.cloudEntry, some defaultCloudEntry] (some r.cloudEntry)
  dedicated : r.dedicated = c.dedicated
  instanceType : r.instanceType = c.instanceType

def Resolves (yaml : Yaml.Reader) (files : Tree) (searchPath : List String) (c : Config)
    (r : Settings) : Prop :=
  ∃ infra project cloud, Identity files c infra project ∧
    FirstCloud yaml files searchPath r.cloudEntry cloud ∧ Composed c infra project cloud r

/-! ### Blank values -/

theorem present_eq_some_iff : Text.present v = some s ↔ v = some s ∧ Text.blank s = false := by
  simp [Text.present, Option.filter_eq_some_iff]

theorem present_eq_none_iff : Text.present v = none ↔ ∀ s, v = some s → Text.blank s = true := by
  simp [Text.present, Option.filter_eq_none_iff]

theorem firstGiven_iff : FirstGiven sources v ↔ sources.findSome? Text.present = v := by
  constructor
  · intro first
    induction first with
    | nowhere => rfl
    | here visible => rw [List.findSome?_cons, present_eq_some_iff.mpr ⟨rfl, visible⟩]
    | later hidden _ ih => rw [List.findSome?_cons, present_eq_none_iff.mpr hidden, ih]
  · rintro rfl
    induction sources with
    | nil => exact .nowhere
    | cons first rest ih =>
      rw [List.findSome?_cons]
      cases given : Text.present first with
      | none => exact .later (present_eq_none_iff.mp given) ih
      | some s =>
        obtain ⟨rfl, visible⟩ := present_eq_some_iff.mp given
        exact .here visible

theorem FirstGiven.visible (first : FirstGiven sources (some s)) : Text.blank s = false := by
  generalize given : some s = v at first
  induction first with
  | nowhere => cases given
  | here visible =>
    obtain rfl := Option.some.inj given
    exact visible
  | later _ _ ih => exact ih given

theorem firstGiven_single : FirstGiven [v] (some s) ↔ Text.present v = some s := by
  rw [firstGiven_iff, List.findSome?_cons]
  cases Text.present v <;> simp

theorem firstGiven_pair {v w u : Option String} :
    FirstGiven [v, w] u ↔ (Text.present v).or (Text.present w) = u := by
  rw [firstGiven_iff, List.findSome?_cons, List.findSome?_cons]
  cases Text.present v <;> cases Text.present w <;> simp

def cloudName (c : Config) : String := (Text.present c.cloudEntry).getD defaultCloudEntry

theorem firstGiven_cloudName :
    FirstGiven [c.cloudEntry, some defaultCloudEntry] (some name) ↔ cloudName c = name := by
  have visible : Text.present (some defaultCloudEntry) = some defaultCloudEntry := by
    decide +kernel
  rw [firstGiven_pair, visible, cloudName]
  cases Text.present c.cloudEntry <;> simp

/-! ### The sources -/

theorem Metadata.load_eq_ok_iff {path : String} {m : Metadata} :
    Metadata.load files path = .ok m ↔
      ∃ text, files.read path = .ok text ∧ Metadata.parse? text = some m := by
  unfold Metadata.load
  cases read : files.read path with
  | error p => simp
  | ok text => cases parsed : Metadata.parse? text <;> simp [parsed]

theorem Cloud.found_of_load {path : String}
    (loaded : Cloud.load yaml files searchPath name = .ok (path, cloud)) :
    searchPath.find? files.isFile = some path ∧ ∃ text clouds, files.read path = .ok text ∧
      Cloud.parse? yaml text = some clouds ∧
      clouds.reverse.find? (fun e => e.1 == name) = some (name, cloud) ∧ cloud.authUrl ≠ none := by
  unfold Cloud.load at loaded
  cases first : searchPath.find? files.isFile with
  | none => simp [first] at loaded
  | some path' =>
    cases read : files.read path' with
    | error p => simp [first, read] at loaded
    | ok text =>
      cases parsed : Cloud.parse? yaml text with
      | none => simp [first, read, parsed] at loaded
      | some clouds =>
        cases last : clouds.reverse.find? (fun e => e.1 == name) with
        | none => simp [first, read, parsed, last] at loaded
        | some entry =>
          obtain ⟨name', cloud'⟩ := entry
          simp only [first, read, parsed, last] at loaded
          split at loaded
          · cases loaded
          · next authorized =>
            obtain ⟨rfl, rfl⟩ := Prod.mk.inj (Except.ok.inj loaded)
            obtain rfl : name' = name := by simpa using List.find?_some last
            exact ⟨rfl, text, clouds, read, parsed, last, by simpa using authorized⟩

/-- What is loaded is the cloud of the first file, and of repeated names the last one. -/
theorem firstCloud_iff : FirstCloud yaml files searchPath name cloud ↔
    ∃ path, Cloud.load yaml files searchPath name = .ok (path, cloud) := by
  constructor
  · rintro ⟨authorized, before, path, after, text, n, clouds, parts, missing, exist, read, document,
      lists, earlier, later, whole, others⟩
    have parsed : Cloud.parse? yaml text = some clouds :=
      Cloud.parse?_eq_some_iff.mpr ⟨n, document, lists⟩
    have first : searchPath.find? files.isFile = some path :=
      List.find?_eq_some_iff_append.mpr ⟨exist, before, after, parts, by simpa using missing⟩
    have last : clouds.reverse.find? (fun e => e.1 == name) = some (name, cloud) :=
      List.find?_eq_some_iff_append.mpr ⟨by simp, later.reverse, earlier.reverse, by simp [whole],
        by simpa using others⟩
    exact ⟨path, by simp [Cloud.load, first, read, parsed, last, authorized]⟩
  · rintro ⟨path, loaded⟩
    obtain ⟨first, text, clouds, read, parsed, last, authorized⟩ := Cloud.found_of_load loaded
    obtain ⟨exist, before, after, parts, missing⟩ := List.find?_eq_some_iff_append.mp first
    obtain ⟨-, later, earlier, whole, others⟩ := List.find?_eq_some_iff_append.mp last
    obtain ⟨n, document, lists⟩ := Cloud.parse?_eq_some_iff.mp parsed
    refine ⟨authorized, before, path, after, text, n, clouds, parts, by simpa using missing, exist,
      read, document, lists, earlier.reverse, later.reverse, ?_, by simpa using others⟩
    simpa using congrArg List.reverse whole

def Legible (files : Tree) (searchPath : List String) : Prop :=
  ∀ path ∈ searchPath, files.isFile path = true → ∃ text, files.read path = .ok text

def Invalid {α : Type} (result : Except Error α) : Prop :=
  ∀ e, result = .error e → ∃ m, e = .invalidConfiguration m

theorem invalid_metadata {path : String} : Invalid (Metadata.load files path) := by
  intro e failed
  unfold Metadata.load at failed
  split at failed
  · exact ⟨_, (Except.error.inj failed).symm⟩
  · split at failed
    · cases failed
    · exact ⟨_, (Except.error.inj failed).symm⟩

theorem invalid_cloud (legible : Legible files searchPath) :
    Invalid (Cloud.load yaml files searchPath name) := by
  intro e failed
  unfold Cloud.load at failed
  split at failed
  · exact ⟨_, (Except.error.inj failed).symm⟩
  · next path first =>
    obtain ⟨text, read⟩ := legible path (List.mem_of_find?_eq_some first) (List.find?_some first)
    simp only [read] at failed
    split at failed
    · exact ⟨_, (Except.error.inj failed).symm⟩
    · split at failed
      · exact ⟨_, (Except.error.inj failed).symm⟩
      · split at failed
        · exact ⟨_, (Except.error.inj failed).symm⟩
        · cases failed

/-! ### The settings -/

def identified (files : Tree) (c : Config) : Except Error (Option String × Option String) :=
  match c.metadataFile with
  | none => .ok (c.infraId, c.projectId)
  | some path => Metadata.load files path >>= fun m => .ok (some m.infraId, some m.projectId)

theorem identity_iff : Identity files c infra project ↔
    identified files c = .ok (infra, project) := by
  unfold identified
  constructor
  · rintro (unnamed | ⟨named, read, parsed, described⟩)
    · simp [unnamed]
    · have loaded := Metadata.load_eq_ok_iff.mpr
        ⟨_, read, Metadata.parse?_eq_some_iff.mpr ⟨_, parsed, described⟩⟩
      simp [named, loaded, bind, Except.bind]
  · intro found
    cases named : c.metadataFile with
    | none =>
      simp only [named] at found
      obtain ⟨rfl, rfl⟩ := Prod.mk.inj (Except.ok.inj found)
      exact .flags named
    | some path =>
      simp only [named] at found
      cases loaded : Metadata.load files path with
      | error e => simp [loaded, bind, Except.bind] at found
      | ok m =>
        simp only [loaded, bind, Except.bind] at found
        obtain ⟨rfl, rfl⟩ := Prod.mk.inj (Except.ok.inj found)
        obtain ⟨text, read, parsed⟩ := Metadata.load_eq_ok_iff.mp loaded
        obtain ⟨d, parsed, described⟩ := Metadata.parse?_eq_some_iff.mp parsed
        exact .metadata named read parsed described

theorem complete_eq_ok_iff {infraId projectId : Option String} :
    complete c infraId projectId name cloud = .ok r ↔
      infraId = some r.infraId ∧
      (Text.present c.region).or (Text.present cloud.regionName) = some r.region ∧
      projectId.or (Text.present cloud.projectId) = r.projectId ∧ name = r.cloudEntry ∧
      c.dedicated = r.dedicated ∧ c.instanceType = r.instanceType := by
  obtain ⟨infraId', region', projectId', entry', dedicated', instanceType'⟩ := r
  unfold complete
  cases infraId with
  | none => simp [require, bind, Except.bind]
  | some s =>
    cases region : (Text.present c.region).or (Text.present cloud.regionName) with
    | none => simp [require, bind, Except.bind]
    | some t => simp [require, bind, Except.bind, pure, Except.pure]

theorem composed_iff : Composed c infra project cloud r ↔ cloudName c = r.cloudEntry ∧
    complete c (Text.present infra) (Text.present project) r.cloudEntry cloud = .ok r := by
  rw [complete_eq_ok_iff]
  constructor
  · rintro ⟨infraId, projectId, region, cloudEntry, dedicated, instanceType⟩
    exact ⟨firstGiven_cloudName.mp cloudEntry, firstGiven_single.mp infraId,
      firstGiven_pair.mp region, firstGiven_pair.mp projectId, rfl, dedicated.symm,
      instanceType.symm⟩
  · rintro ⟨entry, infraId, region, projectId, -, dedicated, instanceType⟩
    exact ⟨firstGiven_single.mpr infraId, firstGiven_pair.mpr projectId, firstGiven_pair.mpr region,
      firstGiven_cloudName.mpr entry, dedicated.symm, instanceType.symm⟩

theorem invalid_complete {infraId projectId : Option String} :
    Invalid (complete c infraId projectId name cloud) := by
  intro e failed
  unfold complete at failed
  cases infraId with
  | none => exact ⟨_, (Except.error.inj failed).symm⟩
  | some s =>
    cases region : (Text.present c.region).or (Text.present cloud.regionName) with
    | none =>
      rw [region] at failed
      exact ⟨_, (Except.error.inj failed).symm⟩
    | some t =>
      rw [region] at failed
      cases failed

def settled (yaml : Yaml.Reader) (files : Tree) (searchPath : List String) (c : Config) :
    Except Error Settings := do
  let ids ← identified files c
  let found ← Cloud.load yaml files searchPath (cloudName c)
  complete c (Text.present ids.1) (Text.present ids.2) (cloudName c) found.2

theorem settled_eq_ok_iff :
    settled yaml files searchPath c = .ok r ↔ Resolves yaml files searchPath c r := by
  have parts : settled yaml files searchPath c = .ok r ↔ ∃ ids found, identified files c = .ok ids ∧
      Cloud.load yaml files searchPath (cloudName c) = .ok found ∧
      complete c (Text.present ids.1) (Text.present ids.2) (cloudName c) found.2 = .ok r := by
    unfold settled
    cases identified files c with
    | error e => simp [bind, Except.bind]
    | ok ids => cases Cloud.load yaml files searchPath (cloudName c) <;> simp [bind, Except.bind]
  rw [parts]
  constructor
  · rintro ⟨⟨infra, project⟩, ⟨path, cloud⟩, known, loaded, made⟩
    have entry : cloudName c = r.cloudEntry := (complete_eq_ok_iff.mp made).2.2.2.1
    rw [entry] at loaded made
    exact ⟨infra, project, cloud, identity_iff.mpr known, firstCloud_iff.mpr ⟨path, loaded⟩,
      composed_iff.mpr ⟨entry, made⟩⟩
  · rintro ⟨infra, project, cloud, known, first, composed⟩
    obtain ⟨entry, made⟩ := composed_iff.mp composed
    rw [← entry] at first made
    obtain ⟨path, loaded⟩ := firstCloud_iff.mp first
    exact ⟨(infra, project), (path, cloud), identity_iff.mp known, loaded, made⟩

theorem Invalid.bind {α β : Type} {x : Except Error α} {f : α → Except Error β} (first : Invalid x)
    (later : ∀ a, Invalid (f a)) : Invalid (x >>= f) := by
  cases x with
  | error e => exact fun e' failed => first e' (congrArg Except.error (Except.error.inj failed))
  | ok a => exact later a

theorem invalid_identified : Invalid (identified files c) := by
  unfold identified
  cases c.metadataFile with
  | none => exact nofun
  | some path => exact invalid_metadata.bind fun m => nofun

theorem invalid_settled (legible : Legible files searchPath) :
    Invalid (settled yaml files searchPath c) :=
  invalid_identified.bind fun _ => (invalid_cloud legible).bind fun _ => invalid_complete

/-! ### Reports -/

section Reporting

variable {α β σ : Type} {h : Program.Handler Reports σ} {x : Resolving α} {result : Except Error α}

def Attentive (h : Program.Handler Reports σ) : Prop := ∀ e s, ∃ s', h e s = (some (), s')

def ComesTo (h : Program.Handler Reports σ) (x : Resolving α) (result : Except Error α) : Prop :=
  ∀ s, ∃ s', x.run.run h s = (some result, s')

theorem comesTo_result : ComesTo h (.mk (.done result)) result := fun s => ⟨s, rfl⟩

theorem comesTo_say {e : Event} (attentive : Attentive h) : ComesTo h (say e) (.ok ()) := by
  intro s
  obtain ⟨s', taken⟩ := attentive e s
  exact ⟨s', Program.run_ask taken⟩

theorem ComesTo.bind {f : α → Resolving β} {g : α → Except Error β} (first : ComesTo h x result)
    (later : ∀ a, ComesTo h (f a) (g a)) : ComesTo h (x >>= f) (result >>= g) := by
  intro s
  obtain ⟨s₁, came⟩ := first s
  rw [Program.run_action_bind, came]
  cases result with
  | error e => exact ⟨s₁, rfl⟩
  | ok a => exact later a s₁

theorem comesTo_expect {complaint : Error → String} (attentive : Attentive h) :
    ComesTo h (expect complaint result) result := by
  cases result with
  | ok a => exact comesTo_result
  | error e => exact (comesTo_say attentive).bind fun _ => comesTo_result

theorem comesTo_identity (attentive : Attentive h) : ComesTo h (identity files c)
    (identified files c >>= fun ids => .ok (Text.present ids.1, Text.present ids.2)) := by
  unfold identity identified
  cases c.metadataFile with
  | none => exact comesTo_result
  | some path =>
    have told : (Metadata.load files path >>= fun m => .ok (some m.infraId, some m.projectId)) >>=
        (fun ids => .ok (Text.present ids.1, Text.present ids.2)) =
        Metadata.load files path >>= fun m => (.ok () : Except Error Unit) >>= fun _ =>
          .ok (Text.present (some m.infraId), Text.present (some m.projectId)) := by
      cases Metadata.load files path <;> rfl
    simp only
    rw [told]
    exact (comesTo_expect attentive).bind fun m =>
      (comesTo_say attentive).bind fun _ => comesTo_result

theorem comesTo_resolve (attentive : Attentive h) :
    ComesTo h (resolve yaml files searchPath c) (settled yaml files searchPath c) := by
  have told : settled yaml files searchPath c =
      (identified files c >>= fun ids => .ok (Text.present ids.1, Text.present ids.2)) >>=
      fun ids => (.ok () : Except Error Unit) >>= fun _ =>
        Cloud.load yaml files searchPath (cloudName c) >>= fun found =>
        (.ok () : Except Error Unit) >>= fun _ =>
          complete c ids.1 ids.2 (cloudName c) found.2 := by
    unfold settled
    cases identified files c with
    | error e => rfl
    | ok ids => cases Cloud.load yaml files searchPath (cloudName c) <;> rfl
  rw [told]
  exact (comesTo_identity attentive).bind fun ids => (comesTo_say attentive).bind fun _ =>
    (comesTo_expect attentive).bind fun found => (comesTo_say attentive).bind fun _ =>
      comesTo_result

end Reporting

/-- Settings are resolved by a fixed precedence, for every reader of YAML, configuration, search
path and tree in which the files of the path can be read. Resolving comes to a result, whoever reads
the reports. It succeeds exactly with the settings that the sources make up; the values in them that
come from a source are not blank; and every failure is an invalid configuration. -/
theorem resolves_by_precedence {σ : Type} (yaml : Yaml.Reader) (files : Tree)
    (searchPath : List String) (c : Config) (legible : Legible files searchPath)
    (h : Program.Handler Reports σ) (attentive : Attentive h) (s : σ) :
    ∃ result s', (resolve yaml files searchPath c).run.run h s = (some result, s') ∧
      (∀ r, result = .ok r ↔ Resolves yaml files searchPath c r) ∧
      (∀ r, result = .ok r → Text.blank r.infraId = false ∧ Text.blank r.region = false ∧
        Text.blank r.cloudEntry = false ∧ ∀ id, r.projectId = some id → Text.blank id = false) ∧
      ∀ e, result = .error e → ∃ m, e = .invalidConfiguration m := by
  obtain ⟨s', came⟩ := comesTo_resolve attentive s
  refine ⟨_, s', came, fun r => settled_eq_ok_iff, fun r settled => ?_, invalid_settled legible⟩
  obtain ⟨infra, project, cloud, -, -, composed⟩ := settled_eq_ok_iff.mp settled
  refine ⟨composed.infraId.visible, composed.region.visible, composed.cloudEntry.visible,
    fun id known => ?_⟩
  have first := composed.projectId
  rw [known] at first
  exact first.visible

def forgetful : Program.Handler Reports Unit := fun _ s => (some (), s)

def ownClouds : String := "clouds:
  openstack:
    auth:
      auth_url: a
      project_id: p-1
    region_name: r-1"

def systemClouds : String := "clouds:
  lab:
    auth:
      auth_url: b
    region_name: r-2"

def home : Tree := ⟨[
  (["own"], .file (some ownClouds)),
  (["system"], .file (some systemClouds)),
  (["first"], .file (some
    "\x7b\"infraID\": \"ocp-1\", \"rhos\": \x7b\"projectID\": \"p-9\"\x7d\x7d")),
  (["second"], .file (some "\x7b\"infraID\": \"ocp-2\"\x7d"))], []⟩

theorem legible_home : Legible home ["own", "system"] := by
  intro path member _
  simp only [List.mem_cons, List.not_mem_nil, or_false] at member
  rcases member with rfl | rfl
  · exact ⟨ownClouds, by decide +kernel⟩
  · exact ⟨systemClouds, by decide +kernel⟩

def fromMetadata (file : String) : Config :=
  ⟨true, some "mine", some " ", some "p-0", some file, some "", "m1"⟩

def inLab : Config := ⟨true, some "mine", none, none, none, some "lab", "m1"⟩

/-- The metadata file stands in for the flags, whether it says anything of the project or leaves it
to the cloud; the region of the flags is blank, and so is the name of the cloud. A cloud in the
second file only is none. -/
theorem resolves_by_precedence_home :
    Resolves Yaml.documents? home ["own", "system"] (fromMetadata "first")
      ⟨"ocp-1", "r-1", some "p-9", "openstack", true, "m1"⟩ ∧
    Resolves Yaml.documents? home ["own", "system"] (fromMetadata "second")
      ⟨"ocp-2", "r-1", some "p-1", "openstack", true, "m1"⟩ ∧
    (∃ m, ((resolve Yaml.documents? home ["own", "system"] inLab).run.run forgetful ()).1 =
      some (.error (.invalidConfiguration m))) ∧
    ¬∃ r, Resolves Yaml.documents? home ["own", "system"] inLab r := by
  have first : ((resolve Yaml.documents? home ["own", "system"] (fromMetadata "first")).run.run
      forgetful ()).1 = some (.ok ⟨"ocp-1", "r-1", some "p-9", "openstack", true, "m1"⟩) := by
    decide +kernel
  have second : ((resolve Yaml.documents? home ["own", "system"] (fromMetadata "second")).run.run
      forgetful ()).1 = some (.ok ⟨"ocp-2", "r-1", some "p-1", "openstack", true, "m1"⟩) := by
    decide +kernel
  have failed : ((resolve Yaml.documents? home ["own", "system"] inLab).run.run forgetful ()).1 =
      some (.error (.invalidConfiguration "cloud \"lab\" not found in own")) := by decide +kernel
  have resolved (c : Config) := resolves_by_precedence Yaml.documents? home ["own", "system"] c
    legible_home forgetful (fun _ s => ⟨s, rfl⟩) ()
  refine ⟨?_, ?_, ⟨_, failed⟩, ?_⟩
  · obtain ⟨result, s', ran, resolves, -⟩ := resolved (fromMetadata "first")
    rw [ran] at first
    obtain rfl := Option.some.inj first
    exact (resolves _).mp rfl
  · obtain ⟨result, s', ran, resolves, -⟩ := resolved (fromMetadata "second")
    rw [ran] at second
    obtain rfl := Option.some.inj second
    exact (resolves _).mp rfl
  · obtain ⟨result, s', ran, resolves, -⟩ := resolved inLab
    rw [ran] at failed
    obtain rfl := Option.some.inj failed
    rintro ⟨r, found⟩
    cases (resolves r).mpr found

end MultiCluster.Gateway.Openstack
