import MultiCluster.Proofs.Recovery
import MultiCluster.Proofs.Repeated

/-! Failures that pass. Over a link that loses requests and answers an operation comes to the same
result as over one that does not, and leaves the same objects, unless a call is given up. Where the
answer to a write is lost, the result may be another, but the objects are the same. -/
namespace MultiCluster.Deploy

open Cluster
open Server (statusFailure withVersion versionOf)

inductive Operation where
  | rights (r : Rights)
  | operator (o : Operator)
  | broker (ns : String) (spec : BrokerSpec)
  | record (ns : String) (desired : Globalnet.Record)
  deriving DecidableEq, Repr

namespace Operation

def work : Operation → Work Outcome
  | .rights r => r.ensure
  | .operator o => o.ensure
  | .broker ns spec => BrokerObject.ensure ns spec
  | .record ns desired => Globalnet.Record.ensureStored ns desired

def applied : Operation → List Errand
  | .rights r => namespaceErrand r.brokerNamespace :: appliedErrands r.objects
  | .operator o => namespaceErrand o.namespaceName :: appliedErrands o.objects
  | .broker _ _ => []
  | .record _ _ => []

def upsert? : Operation → Option Upsert
  | .rights _ => none
  | .operator o => some o.upsert
  | .broker ns spec => some (BrokerObject.upsert ns spec)
  | .record ns desired => some (Globalnet.Record.upsert ns desired)

end Operation

variable {fates : Nat → Fate} {s t : Server} {op : Operation} {u : Upsert} {v w : Json} {p : Path}
  {r : Request}

theorem Operation.work_eq : op.work = Outcome.combine <$>
    Errand.performAll (op.applied ++ op.upsert?.toList.map Upsert.errand) := by
  cases op with
  | rights r =>
    show Rights.ensure r = _
    rw [Rights.ensure, applyObjects_eq]
    simp [applied, upsert?, Errand.performAll, namespaceErrand, applyErrand, ensureNamespace]
  | operator o =>
    show Operator.ensure o = _
    rw [Operator.ensure, applyObjects_eq, Operator.ensureDeployment_eq]
    simp [applied, upsert?, Errand.performAll, Errand.performAll_append, namespaceErrand,
      applyErrand, ensureNamespace, Upsert.errand]
  | broker ns spec =>
    show BrokerObject.ensure ns spec = _
    rw [BrokerObject.ensure_eq]
    exact (performAll_single (e := (BrokerObject.upsert ns spec).errand)).symm
  | record ns desired =>
    show Globalnet.Record.ensureStored ns desired = _
    rw [Globalnet.Record.ensureStored_eq]
    exact (performAll_single (e := (Globalnet.Record.upsert ns desired).errand)).symm

theorem Operation.applied_absorbed (passing : Passing fates) : ∀ e ∈ op.applied, ∀ s : Server,
    s.faults = [] → Absorbs fates Eq BothOk s e.work := by
  have each : ∀ c name v, Applicable c name v → ∀ s : Server, s.faults = [] →
      Absorbs fates Eq BothOk s (applyErrand c name v).work :=
    fun _ _ _ ok s quiet => ok.absorbs_apply passing quiet
  cases op with
  | rights r =>
    refine List.forall_mem_cons.mpr ⟨each _ _ _ applicable_namespace, ?_⟩
    exact forall_appliedErrands (Rights.allApplicable r) each
  | operator o =>
    refine List.forall_mem_cons.mpr ⟨each _ _ _ applicable_namespace, ?_⟩
    exact forall_appliedErrands (Operator.allApplicable o) each
  | broker ns spec => exact fun _ member => nomatch member
  | record ns desired => exact fun _ member => nomatch member

theorem Operation.upsert_sound (given : op.upsert? = some u) : u.Sound := by
  cases op with
  | rights r => cases given
  | operator o => exact Option.some.inj given ▸ Operator.upsert_sound
  | broker ns spec => exact Option.some.inj given ▸ BrokerObject.upsert_sound
  | record ns desired => exact Option.some.inj given ▸ Globalnet.Record.upsert_sound

theorem SameContent.refl (s : Server) : SameContent s s := fun _ => rfl

theorem sameContent_of_rewritten (rewritten : Rewritten p v s t) :
    SameContent (s.write p v).2 t := by
  intro q
  by_cases here : q = p
  · subst here
    obtain ⟨n, found⟩ := rewritten.here
    rw [found, Server.find?_write_self, Option.map_some, Option.map_some,
      Server.content_withVersion (m := n)]
  · rw [rewritten.elsewhere q here, Server.find?_write_of_ne here]

/-- A creation or a replacement, repeated until it is answered. -/
theorem absorbs_write {k : Kind} {resource : String} {outcome : Outcome} (passing : Passing fates)
    (notMachineSet : k ≠ .machineSet) (hasMetadata : Object.HasMetadata v) (quiet : s.faults = [])
    (rewrites : Rewrites r p v s) :
    Absorbs fates SameContent Alike s
      ((fun _ => outcome) <$> persistently (exchange resource r (Reply.read k.read))) := by
  have answer : blame resource (Reply.read k.read (s.serve r).1) = _ := blame_write rewrites.first
  have final : ∀ e, blame resource (Reply.read k.read (s.serve r).1) = .error e →
      e.isTransient = false := by
    rw [answer]
    exact fun _ => readBack_final
  have ran := runOn_persistently_exchange quiet final
  rw [answer, rewrites.first] at ran
  have absorbs : Absorbs fates SameContent Alike s
      (persistently (exchange resource r (Reply.read k.read))) := by
    refine ⟨_, _, ran, quiet, fun l same => ?_⟩
    refine (brings_write passing notMachineSet hasMetadata rewrites same).imp ?_
    rintro result l' (⟨rewritten, told⟩ | givenUp)
    · exact .inl ⟨sameContent_of_rewritten rewritten, told⟩
    · exact .inr givenUp
  exact absorbs_map absorbs fun _ _ => Alike.map

section

variable (sound : u.Sound) (passing : Passing fates) (quiet : s.faults = [])
include sound passing quiet

/-- The object that a lost creation has stored keeps it from taking place again. -/
theorem absorbs_create (absent : s.objects.find? u.path = none) :
    Absorbs fates SameContent Alike s (u.settle none) := by
  have eq : u.settle none =
      (fun _ => .created) <$> persistently (u.collection.create u.label u.created) := by
    rw [map_eq_pure_bind]
    rfl
  rw [eq]
  refine absorbs_write (p := u.path) passing sound.notMachineSet sound.createdMetadata quiet
    ⟨?_, ?_⟩
  · rw [serve_createRequest sound.named, show u.collection.member u.name = u.path from rfl, absent]
  · intro t rewritten
    obtain ⟨n, found⟩ := rewritten.here
    rw [serve_createRequest sound.named, show u.collection.member u.name = u.path from rfl, found]
    exact .inr ⟨_, _, rfl⟩

/-- A lost replacement is refused the second time if it names the version that was read, and takes
place again if it names none. -/
theorem absorbs_replace (found : s.objects.find? u.path = some v)
    (reading : u.collection.kind.read v = .ok w) (wanting : u.keeps w = .ok false) :
    Absorbs fates SameContent Alike s (u.settle (some w)) := by
  have current : versionOf (u.replacement w) = none ∨
      versionOf (u.replacement w) = versionOf v := by
    rw [← Kind.version?_of_read sound.notMachineSet reading]
    exact sound.bound reading wanting
  have eq : u.settle (some w) = (fun _ => .updated) <$>
      persistently (u.collection.replace u.label u.name (u.replacement w)) := by
    rw [map_eq_pure_bind]
    simp only [Upsert.settle, wanting]
  rw [eq]
  refine absorbs_write (p := u.path) passing sound.notMachineSet
    (sound.replacementMetadata wanting) quiet ⟨?_, ?_⟩
  · rw [serve_replaceRequest, show u.collection.member u.name = u.path from rfl, found]
    rcases current with none | same
    · simp [none]
    · simp [same]
  · intro t rewritten
    obtain ⟨n, stored⟩ := rewritten.here
    rw [serve_replaceRequest, show u.collection.member u.name = u.path from rfl, stored]
    simp only
    split
    · exact .inr ⟨_, _, rfl⟩
    · exact .inl rfl

theorem absorbs_settle {existing : Option Json}
    (read : u.collection.kind.readStored (s.objects.find? u.path) = .ok existing) :
    Absorbs fates SameContent Alike s (u.settle existing) := by
  cases found : s.objects.find? u.path with
  | none =>
    rw [found] at read
    obtain rfl := Except.ok.inj read
    exact absorbs_create sound passing quiet found
  | some v =>
    obtain ⟨w, reading⟩ := reads_of_readStored read v found
    rw [found, Kind.readStored, readBack_of_read reading] at read
    obtain rfl := Except.ok.inj read
    cases kept : u.keeps w with
    | error e =>
      have done : (u.settle (some w)).run = .done (.error e) := by
        simp only [Upsert.settle, kept]
        rfl
      exact absorbs_of_done SameContent.refl quiet done
    | ok will =>
      cases will with
      | true =>
        have done : (u.settle (some w)).run = .done (.ok .unchanged) := by
          simp only [Upsert.settle, kept]
          rfl
        exact absorbs_of_done SameContent.refl quiet done
      | false => exact absorbs_replace sound passing quiet found reading kept

theorem absorbs_upsert : Absorbs fates SameContent Alike s u.work := by
  cases read : u.collection.kind.readStored (s.objects.find? u.path) with
  | error e =>
    refine ⟨.error e, s, by rw [Upsert.Sound.runOn_work quiet, read], quiet, fun l same => ?_⟩
    refine brings_bind ((brings_find? passing).imp ?_)
    rintro looked l₁ (⟨rfl, kept⟩ | ⟨exhausted, e', rfl, transient⟩)
    · rw [same, show u.collection.member u.name = u.path from rfl, read]
      exact .inl ⟨kept.trans same ▸ SameContent.refl _, .inl rfl⟩
    · exact .inr ⟨exhausted, e', rfl, transient⟩
  | ok existing =>
    obtain ⟨result, t, ran, quiet', brings⟩ := absorbs_settle sound passing quiet read
    refine ⟨result, t, by rw [Upsert.Sound.runOn_work quiet, read]; exact ran, quiet', ?_⟩
    refine fun l same => brings_bind ((brings_find? passing).imp ?_)
    rintro looked l₁ (⟨rfl, kept⟩ | ⟨exhausted, e, rfl, transient⟩)
    · rw [same, show u.collection.member u.name = u.path from rfl, read]
      exact brings l₁ (kept.trans same)
    · exact .inr ⟨exhausted, e, rfl, transient⟩

end

theorem absorbs_work (op : Operation) (passing : Passing fates) (quiet : s.faults = []) :
    Absorbs fates SameContent Alike s op.work := by
  have last (t : Server) (quiet' : t.faults = []) : Absorbs fates SameContent Alike t
      (Errand.performAll (op.upsert?.toList.map Upsert.errand)) := by
    cases given : op.upsert? with
    | none => exact absorbs_of_done SameContent.refl quiet' rfl
    | some u =>
      have single : Errand.performAll [u.errand] = (fun outcome => [outcome]) <$> u.work := by
        simp [Errand.performAll, Upsert.errand]
      rw [Option.toList_some, List.map_singleton, single]
      exact absorbs_map (absorbs_upsert (op.upsert_sound given) passing quiet') fun _ _ => Alike.map
  have inTurn : Errand.performAll (op.applied ++ op.upsert?.toList.map Upsert.errand) =
      Errand.performAll op.applied >>= fun first =>
        (first ++ ·) <$> Errand.performAll (op.upsert?.toList.map Upsert.errand) := by
    rw [Errand.performAll_append]
    simp
  rw [Operation.work_eq, inTurn]
  have applied := absorbs_performAll (op.applied_absorbed passing) quiet
  exact absorbs_map (absorbs_then SameContent.refl (fun _ _ => .inr rfl)
    (fun _ _ _ _ => Alike.map) applied last) fun _ _ => Alike.map

/-- An operation over a link that loses requests and answers, against the same operation
undisturbed. Unless a call is given up, the same is stored in the end; unless the answer to a write
is lost, the result is the same as well. -/
theorem absorbed (op : Operation) (passing : Passing fates) (quiet : s.faults = []) :
    ∃ result t result' l, runOn s op.work = (some result, t) ∧
      runOver fates s op.work = (some result', l) ∧
      (GivenUp result' l ∨ SameContent t l.server ∧ Alike result result' ∧
        (¬ LostWrite l.log → result' = result)) := by
  obtain ⟨result, t, ran, -, brings⟩ := absorbs_work op passing quiet
  obtain ⟨result', l, ranOver, ended⟩ := brings (.onto s) rfl
  refine ⟨result, t, result', l, ran, ranOver, ended.symm.imp_right ?_⟩
  rintro ⟨same, told⟩
  refine ⟨same, ?_, fun noneLost => told.resolve_right fun lost => noneLost lost.1⟩
  rcases told with rfl | ⟨-, alike⟩
  · exact .inr rfl
  · exact alike

/-- The fates of requests all but one of which are answered. -/
def once (n : Nat) (fate : Fate) (m : Nat) : Fate := if m = n then fate else .answered

theorem passing_once {n : Nat} {fate : Fate} {reply : Reply}
    (given : fate = .refused reply ∨ fate = .lost reply) (passing : reply.Passing) :
    Passing (once n fate) := by
  intro m reply' failed
  unfold once at failed
  split at failed
  · rcases given with rfl | rfl
    · simp only [Fate.refused.injEq, reduceCtorEq, or_false] at failed
      exact failed ▸ passing
    · simp only [Fate.lost.injEq, reduceCtorEq, false_or] at failed
      exact failed ▸ passing
  · simp at failed

def reset : Reply := .broken "connection reset by peer"

theorem passing_reset : reset.Passing := ⟨_, rfl, rfl, id⟩

def defaultBroker : Operation := .broker "submariner-k8s-broker" BrokerSpec.default

/-- The connection breaks at the first look for the broker object. -/
theorem absorbed_broken_look : ∃ t l,
    runOn pristine defaultBroker.work = (some (.ok .created), t) ∧
      runOver (once 0 (.refused reset)) pristine defaultBroker.work = (some (.ok .created), l) ∧
      l.log = [.refused, .paused (.ofMillis 200), .answered, .answered] ∧
      SameContent t l.server := by
  have passing : Passing (once 0 (.refused reset)) := passing_once (.inl rfl) passing_reset
  obtain ⟨result, t, result', l, ran, ranOver, ended⟩ :=
    absorbed (s := pristine) defaultBroker passing rfl
  have created : (runOn pristine defaultBroker.work).1 = some (.ok .created) := by decide +kernel
  have createdOver : (runOver (once 0 (.refused reset)) pristine defaultBroker.work).1 =
      some (.ok .created) := by decide +kernel
  have log : (runOver (once 0 (.refused reset)) pristine defaultBroker.work).2.log =
      [.refused, .paused (.ofMillis 200), .answered, .answered] := by decide +kernel
  rw [ran] at created
  rw [ranOver] at createdOver log
  obtain rfl := Option.some.inj created
  obtain rfl := Option.some.inj createdOver
  rcases ended with ⟨-, e, ⟨⟩, -⟩ | ⟨same, -⟩
  exact ⟨t, l, ran, ranOver, log, same⟩

/-- Two ways in which one failure ends in a conflict. The answer to the creation is lost, and the
object that it has stored keeps the repeated one from taking place. Or an object is there, but the
server, out of order, says that it has found none. -/
theorem conflict_of_one_failure :
    (runOn pristine defaultBroker.work).1 = some (.ok .created) ∧
      (runOver (once 1 (.lost reset)) pristine defaultBroker.work).2.log =
        [.answered, .lost true, .paused (.ofMillis 200), .answered] ∧
      (runOver (once 1 (.lost reset)) pristine defaultBroker.work).1 =
        some (.error (.conflict "Broker/submariner-broker"
          ("/apis/submariner.io/v1alpha1/namespaces/submariner-k8s-broker/brokers/" ++
            "submariner-broker already exists"))) ∧
      (runOn (runOn pristine defaultBroker.work).2 defaultBroker.work).1 =
        some (.ok .unchanged) ∧
      (runOver (once 0 (.refused (Server.statusFailure 503 "NotFound" "no endpoints")))
        (runOn pristine defaultBroker.work).2 defaultBroker.work).2.log =
          [.refused, .answered] ∧
      (runOver (once 0 (.refused (Server.statusFailure 503 "NotFound" "no endpoints")))
        (runOn pristine defaultBroker.work).2 defaultBroker.work).1 =
        some (.error (.conflict "Broker/submariner-broker"
          ("/apis/submariner.io/v1alpha1/namespaces/submariner-k8s-broker/brokers/" ++
            "submariner-broker already exists"))) := by
  decide +kernel

end MultiCluster.Deploy
