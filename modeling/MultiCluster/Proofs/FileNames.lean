import Mathlib.Data.List.Basic
import MultiCluster.Proofs.Confinement

/-! Which gathered item a file belongs to. A file is named after a pod and a container, or after a
kind and an object, with an underscore between them. Names of a cluster have no underscore and only
characters that file names keep, so the two parts can be told apart, and so can logs, objects and
modules. -/
namespace MultiCluster.Gather

open Cluster (Kind)
open Files (Location)

def isNameChar (c : Char) : Bool := c.isLower || c.isDigit || c == '-' || c == '.'

def IsName (name : String) : Prop := ∀ c ∈ name.toList, isNameChar c = true

instance {name : String} : Decidable (IsName name) :=
  decidable_of_iff (name.toList.all isNameChar = true) List.all_eq_true

variable {o : Options} {m : Module} {k k' : Kind} {t : Files.Tree}
  {cluster name name' pod pod' container container' : String}

section Names

theorem fileName_of_kept (kept : ∀ c ∈ name.toList, isFileChar c = true) :
    fileName name = name := by
  refine String.toList_inj.mp ?_
  calc (fileName name).toList = name.toList.map fileChar := toList_fileName
    _ = name.toList.map id := List.map_congr_left fun c member => if_pos (kept c member)
    _ = name.toList := List.map_id _

theorem IsName.kept (named : IsName name) : ∀ c ∈ name.toList, isFileChar c = true := by
  intro c member
  have each := named c member
  simp only [isNameChar, Bool.or_eq_true] at each
  have alphanumeric (either : c.isLower = true ∨ c.isDigit = true) : c.isAlphanum = true := by
    show (c.isUpper || c.isLower || c.isDigit) = true
    rcases either with lower | digit
    · simp [lower]
    · simp [digit]
  rcases each with (ascii | dash) | dot
  · simp [isFileChar, alphanumeric ascii]
  · simp [isFileChar, dash]
  · simp [isFileChar, dot]

theorem IsName.no_underscore (named : IsName name) : '_' ∉ name.toList := by
  intro member
  exact absurd (named '_' member) (by decide)

theorem logFile_eq (pods : IsName pod) (containers : IsName container) :
    logFile pod container = pod ++ "_" ++ container ++ ".log" := by
  refine fileName_of_kept ?_
  simp only [String.toList_append, List.forall_mem_append]
  exact ⟨⟨⟨pods.kept, List.all_eq_true.mp (by decide)⟩, containers.kept⟩,
    List.all_eq_true.mp (by decide)⟩

theorem mem_all (k : Kind) : k ∈ Kind.all := by cases k <;> decide

theorem kindName_kept (k : Kind) : ∀ c ∈ (Text.lower k.name).toList, isFileChar c = true := by
  have each : ∀ k ∈ Kind.all, (Text.lower k.name).toList.all isFileChar = true := by decide
  exact List.all_eq_true.mp (each k (mem_all k))

theorem kindName_no_underscore (k : Kind) : '_' ∉ (Text.lower k.name).toList := by
  have each : ∀ k ∈ Kind.all, '_' ∉ (Text.lower k.name).toList := by decide
  exact each k (mem_all k)

/-- Kinds are told apart by their names in lower case. -/
theorem kindName_injective (same : Text.lower k.name = Text.lower k'.name) : k = k' := by
  have once : (Kind.all.map fun k => Text.lower k.name).Nodup := by decide
  exact List.inj_on_of_nodup_map once (mem_all k) (mem_all k') same

theorem objectFile_eq (named : IsName name) :
    objectFile k name = Text.lower k.name ++ "_" ++ name ++ ".yaml" := by
  refine fileName_of_kept ?_
  simp only [String.toList_append, List.forall_mem_append]
  exact ⟨⟨⟨kindName_kept k, List.all_eq_true.mp (by decide)⟩, named.kept⟩,
    List.all_eq_true.mp (by decide)⟩

theorem logFile_injective (pods : IsName pod) (pods' : IsName pod') (containers : IsName container)
    (containers' : IsName container') (same : logFile pod container = logFile pod' container') :
    pod = pod' ∧ container = container' := by
  rw [logFile_eq pods containers, logFile_eq pods' containers'] at same
  have chars : pod.toList ++ '_' :: (container.toList ++ ".log".toList) =
      pod'.toList ++ '_' :: (container'.toList ++ ".log".toList) := by
    simpa using congrArg String.toList same
  have behind : '_' ∉ container.toList ++ ".log".toList := by
    rw [List.mem_append, not_or]
    exact ⟨containers.no_underscore, by decide⟩
  obtain ⟨left, -, right⟩ := (List.append_cons_inj_of_notMem pods.no_underscore behind).mp chars
  exact ⟨String.toList_inj.mp left, String.toList_inj.mp (List.append_cancel_right right)⟩

theorem objectFile_injective (named : IsName name) (named' : IsName name')
    (same : objectFile k name = objectFile k' name') : k = k' ∧ name = name' := by
  rw [objectFile_eq named, objectFile_eq named'] at same
  have chars : (Text.lower k.name).toList ++ '_' :: (name.toList ++ ".yaml".toList) =
      (Text.lower k'.name).toList ++ '_' :: (name'.toList ++ ".yaml".toList) := by
    simpa using congrArg String.toList same
  have behind : '_' ∉ name.toList ++ ".yaml".toList := by
    rw [List.mem_append, not_or]
    exact ⟨named.no_underscore, by decide⟩
  obtain ⟨left, -, right⟩ :=
    (List.append_cons_inj_of_notMem (kindName_no_underscore k) behind).mp chars
  exact ⟨kindName_injective (String.toList_inj.mp left),
    String.toList_inj.mp (List.append_cancel_right right)⟩

/-- The ending of a file tells logs and objects apart. -/
theorem logFile_ne_objectFile (pods : IsName pod) (containers : IsName container)
    (named : IsName name) : logFile pod container ≠ objectFile k name := by
  intro same
  rw [logFile_eq pods containers, objectFile_eq named] at same
  have ends (s e : String) (filled : e.toList ≠ []) :
      (s ++ e).toList.getLast? = e.toList.getLast? := by
    rw [String.toList_append, List.getLast?_append_of_ne_nil _ filled]
  have last := congrArg (fun s : String => s.toList.getLast?) same
  rw [ends _ ".log" (by decide), ends _ ".yaml" (by decide)] at last
  exact absurd last (by decide)

end Names

/-- What is gathered into a file of its own: the log of a container, or an object. -/
inductive Item where
  | log (m : Module) (pod container : String)
  | object (m : Module) (k : Kind) (name : String)
  deriving DecidableEq, Repr

namespace Item

def owner : Item → Module
  | .log m _ _ => m
  | .object m _ _ => m

def type : Item → String
  | .log _ _ _ => logs
  | .object _ _ _ => resources

def file : Item → String
  | .log _ pod container => logFile pod container
  | .object _ k name => objectFile k name

def directory (o : Options) (cluster : String) (i : Item) : String :=
  Files.join (clusterDirectory o cluster) i.owner.name

def location (t : Files.Tree) (o : Options) (cluster : String) (i : Item) : Location :=
  t.place (clusterDirectory o cluster) ++ [i.owner.name, i.file]

inductive Named : Item → Prop
  | log {m : Module} {pod container : String} : m ∈ modules → IsName pod → IsName container →
      Named (.log m pod container)
  | object {m : Module} {k : Kind} {name : String} : m ∈ modules → IsName name →
      Named (.object m k name)

variable {i j : Item}

theorem Named.owned (named : i.Named) : i.owner ∈ modules := by
  cases named with
  | log listed _ _ => exact listed
  | object listed _ => exact listed

theorem isComponent_file : Files.IsComponent i.file := by
  cases i with
  | log m pod container => exact isComponent_logFile
  | object m k name => exact isComponent_objectFile

theorem location_eq (named : i.Named) :
    i.location t o cluster = Files.step (t.place (i.directory o cluster)) i.file := by
  rw [Files.step_component isComponent_file, directory,
    Files.Tree.place_join (isComponent_moduleName named.owned), location, List.append_assoc]
  rfl

/-- A file belongs to one item. -/
theorem eq_of_file (first : i.Named) (second : j.Named) (owner : i.owner = j.owner)
    (file : i.file = j.file) : i = j := by
  cases first with
  | log _ pods containers =>
    cases second with
    | log _ pods' containers' =>
      obtain rfl := owner
      obtain ⟨rfl, rfl⟩ := logFile_injective pods pods' containers containers' file
      rfl
    | object _ named => exact absurd file (logFile_ne_objectFile pods containers named)
  | object _ named =>
    cases second with
    | log _ pods containers => exact absurd file.symm (logFile_ne_objectFile pods containers named)
    | object _ named' =>
      obtain rfl := owner
      obtain ⟨rfl, rfl⟩ := objectFile_injective named named' file
      rfl

theorem eq_of_location (first : i.Named) (second : j.Named)
    (same : i.location t o cluster = j.location t o cluster) : i = j := by
  have ends := List.append_cancel_left same
  obtain ⟨owner, file⟩ : i.owner.name = j.owner.name ∧ i.file = j.file := by simpa using ends
  have once : (modules.map Module.name).Nodup := by decide
  exact eq_of_file first second
    (List.inj_on_of_nodup_map once first.owned second.owned owner) file

end Item

end MultiCluster.Gather
