import MultiCluster.Proofs.Deployment
import MultiCluster.Proofs.Timed

/-! The globalnet record among other writers. An update is bound to the version that was read, and
versions are never given twice, so it takes effect only if the record is still the one that was
looked at: one without members. -/
namespace MultiCluster.Globalnet.Record

open Cluster
open Server (Exchange AboutOnly withVersion versionOf)

variable {p : Path} {s s' s₁ s₂ : Server} {v v' w : Json} {ns : String}
  {desired : Record} {existing : Option Json}

def Renewed (p : Path) (s s' : Server) : Prop :=
  s.version ≤ s'.version ∧ (s'.objects.find? p = s.objects.find? p ∨
    ∃ v n, s'.objects.find? p = some v ∧ versionOf v = some (Text.decimal n) ∧
      s.version < n ∧ n ≤ s'.version)

/-- The object at a path has a version, and one that the server will not give again. -/
def Stamped (p : Path) (s : Server) : Prop := ∀ v, s.objects.find? p = some v →
  ∃ version, versionOf v = some version ∧ ∀ n, s.version < n → version ≠ Text.decimal n

theorem Renewed.refl : Renewed p s s := ⟨le_rfl, .inl rfl⟩

theorem Renewed.trans (first : Renewed p s s₁) (second : Renewed p s₁ s₂) : Renewed p s s₂ := by
  obtain ⟨grew, first⟩ := first
  obtain ⟨grew', second⟩ := second
  refine ⟨grew.trans grew', ?_⟩
  rcases second with same | ⟨v, n, found, version, after, before⟩
  · rcases first with same' | ⟨v, n, found, version, after, before⟩
    · exact .inl (same.trans same')
    · exact .inr ⟨v, n, same.trans found, version, after, before.trans grew'⟩
  · exact .inr ⟨v, n, found, version, grew.trans_lt after, before⟩

theorem Stamped.renewed (stamped : Stamped p s) (renewed : Renewed p s s') : Stamped p s' := by
  intro v found
  obtain ⟨grew, same | ⟨v', n, found', version, -, before⟩⟩ := renewed
  · obtain ⟨version, known, past⟩ := stamped v (same.symm.trans found)
    exact ⟨version, known, fun n later => past n (grew.trans_lt later)⟩
  · obtain rfl := Option.some.inj (found.symm.trans found')
    refine ⟨_, version, fun m later same => ?_⟩
    have := Text.decimal_injective same
    omega

/-- An object that still has its version is still the same. -/
theorem Renewed.eq_of_version (renewed : Renewed p s s') (stamped : Stamped p s)
    (found : s.objects.find? p = some v) (found' : s'.objects.find? p = some v')
    (same : versionOf v' = versionOf v) : v' = v := by
  obtain ⟨-, kept | ⟨u, n, new, version, after, -⟩⟩ := renewed
  · exact Option.some.inj (found'.symm.trans (kept.trans found))
  · obtain rfl := Option.some.inj (found'.symm.trans new)
    obtain ⟨old, known, past⟩ := stamped v found
    rw [known, version] at same
    exact absurd (Option.some.inj same).symm (past n after)

theorem renewed_write (ok : Object.HasMetadata v) : Renewed p s (s.write p v).2 :=
  ⟨Nat.le_succ _, .inr ⟨_, s.version + 1, Server.find?_write_self, Server.versionOf_withVersion ok,
    Nat.lt_succ_self _, le_rfl⟩⟩

def path (ns : String) : Path := (maps ns).member mapName

theorem resourcePath_path : Server.resourcePath (path ns) = ["configmaps", mapName] :=
  Collection.resourcePath_member

def ofStored? (stored : Option Json) : Option Record :=
  match stored with
  | none => none
  | some v =>
    match Kind.configMap.read v with
    | .error _ => none
    | .ok w => (ofConfigMap w).toOption

def held? (ns : String) (s : Server) : Option Record := ofStored? (s.objects.find? (path ns))

theorem held?_eq_some_iff {r : Record} : held? ns s = some r ↔
    ∃ v w, s.objects.find? (path ns) = some v ∧ Kind.configMap.read v = .ok w ∧
      ofConfigMap w = .ok r := by
  unfold held? ofStored?
  cases found : s.objects.find? (path ns) with
  | none => simp
  | some v =>
    cases reading : Kind.configMap.read v with
    | error detail => simp [reading]
    | ok w => cases read : ofConfigMap w <;> simp [reading, read, Except.toOption]

/-- A record with members stays as it is, and what replaces any other has a new version. -/
def Spares (ns : String) (s s' : Server) : Prop :=
  Renewed (path ns) s s' ∧ (s'.objects.find? (path ns) = s.objects.find? (path ns) ∨
    ∀ r, held? ns s = some r → r.clusters = [])

theorem Spares.refl : Spares ns s s := ⟨.refl, .inl rfl⟩

theorem spares_elsewhere {c : Call} {a : Calls.Answer c} (exchange : Exchange c s a s')
    (about : AboutOnly p c) (other : path ns ≠ p) : Spares ns s s' :=
  have kept := exchange.elsewhere about other
  ⟨⟨exchange.version, .inl kept⟩, .inl kept⟩

/-- A creation leaves what is stored alone. -/
theorem spares_create : (persistently ((maps ns).create (label ns) (desired.toConfigMap ns))).run.Meets
    Exchange (Renewed (path ns)) (Spares ns) (fun _ _ => True) s := by
  have named : Object.name? (desired.toConfigMap ns) = some mapName :=
    (Kind.name?_object further_data).trans (by simp [Object.named, Fields.find?, Json.str?])
  refine meets_exchanges (K := fun _ => True) (fun _ _ => .refl) (fun _ _ ready _ => ready) ?_ trivial
  intro s₁ _ reply s₂ came
  refine ⟨?_, trivial, trivial⟩
  rcases came.cases with rfl | ⟨r, same, rfl⟩
  · exact .refl
  · obtain rfl := Call.send.inj same
    rw [serve_createRequest named]
    cases stored : s₁.objects.find? ((maps ns).member mapName) with
    | some v => exact .refl
    | none =>
      refine ⟨renewed_write (Kind.hasMetadata_object further_data), .inr fun r held => ?_⟩
      rw [held?, path, stored] at held
      cases held

/-- A replacement takes effect only on the config map whose version it names. -/
theorem spares_replace {body : Json} (stamped : Stamped (path ns) s)
    (found : s.objects.find? (path ns) = some v) (bound : versionOf body = versionOf v)
    (ok : Object.HasMetadata body) (alone : ∀ r, held? ns s = some r → r.clusters = []) :
    (persistently ((maps ns).replace (label ns) mapName body)).run.Meets Exchange
      (Renewed (path ns)) (Spares ns) (fun _ _ => True) s := by
  refine meets_exchanges (K := Renewed (path ns) s) (fun _ _ => .refl) (fun _ _ => .trans) ?_ .refl
  intro s₁ renewed reply s₂ came
  have spares : Spares ns s₁ s₂ := by
    rcases came.cases with rfl | ⟨r, same, rfl⟩
    · exact .refl
    · obtain rfl := Call.send.inj same
      rw [serve_replaceRequest]
      cases found' : s₁.objects.find? ((maps ns).member mapName) with
      | none => exact .refl
      | some v' =>
        obtain ⟨version, known, -⟩ := stamped v found
        by_cases current : versionOf body = versionOf v'
        · -- The version is still the one that was read, so nobody has joined since.
          have still : v' = v := renewed.eq_of_version stamped found found' (current.symm.trans bound)
          have same : s₁.objects.find? (path ns) = s.objects.find? (path ns) :=
            found'.trans (still ▸ found.symm)
          rw [held?, ← same] at alone
          simp only [current, bne_self_eq_false, Bool.and_false, Bool.false_eq_true, if_false]
          exact ⟨renewed_write ok, .inr alone⟩
        · have named : (versionOf body).isSome = true := by rw [bound, known]; rfl
          simp only [named, bne_iff_ne.mpr current, Bool.and_self, if_true]
          exact .refl
  exact ⟨spares, renewed.trans spares.1, trivial⟩

theorem spares_settle (stamped : Stamped (path ns) s)
    (found : ∀ w, existing = some w → ∃ v, s.objects.find? (path ns) = some v ∧
      Kind.configMap.read v = .ok w) :
    ((upsert ns desired).settle existing).run.Meets Exchange (Renewed (path ns)) (Spares ns)
      (fun _ _ => True) s := by
  cases existing with
  | none =>
    refine meets_bind (spares_create.imp fun result _ _ => ?_)
    cases result <;> trivial
  | some w =>
    obtain ⟨v, stored, reading⟩ := found w rfl
    simp only [Upsert.settle]
    cases wanting : (upsert ns desired).keeps w with
    | error e => trivial
    | ok will =>
      cases will with
      | true => trivial
      | false =>
        have bound : versionOf ((upsert ns desired).replacement w) = versionOf v := by
          rw [replacement_eq wanting]
          exact (Kind.versionOf_bound _ further_data (by simp [Object.named])).trans
            (Kind.version?_of_read (by decide) reading)
        have free : ∀ r, held? ns s = some r → r.clusters = [] := by
          obtain ⟨r', read, alone⟩ := alone_of_wanting wanting
          intro r held
          obtain ⟨_, _, stored', reading', read'⟩ := held?_eq_some_iff.mp held
          obtain rfl := Option.some.inj (stored.symm.trans stored')
          obtain rfl := Except.ok.inj (reading.symm.trans reading')
          exact Except.ok.inj (read.symm.trans read') ▸ alone
        refine meets_bind ((spares_replace stamped stored bound
          (upsert_sound.replacementMetadata wanting) free).imp fun result _ _ => ?_)
        cases result <;> trivial

/-- Looking at the record spares it, and what is found is stored then. -/
theorem spares_looking {α : Type} {f : Option Json → Work α} (stamped : Stamped (path ns) s)
    (later : ∀ existing s', Stamped (path ns) s' → (∀ w, existing = some w →
      ∃ v, s'.objects.find? (path ns) = some v ∧ Kind.configMap.read v = .ok w) →
      (f existing).run.Meets Exchange (Renewed (path ns)) (Spares ns) (fun _ _ => True) s') :
    (persistently ((maps ns).find? (label ns) mapName) >>= f).run.Meets Exchange
      (Renewed (path ns)) (Spares ns) (fun _ _ => True) s := by
  refine meets_bind (Program.Meets.mono (meets_find? _ _ _ (fun _ => .refl)
    fun _ _ _ => .trans) ?_ ?_)
  · rintro s₁ _ rfl
    exact .refl
  · rintro result s' ⟨renewed, found⟩
    cases result with
    | error e => trivial
    | ok existing =>
      exact later existing s' (stamped.renewed renewed) fun w some => found w (some ▸ rfl)

/-- What both the record's own work and others keep is there throughout. -/
theorem stamped_throughout {α : Type} {w : Work α} (stamped : Stamped (path ns) s)
    (spares : w.run.Meets Exchange (Renewed (path ns)) (Spares ns) (fun _ _ => True) s) :
    w.run.Meets Exchange (Renewed (path ns)) (Spares ns) (fun _ s' => Stamped (path ns) s') s :=
  (spares.invariant (fun _ _ moved kept => kept.renewed moved)
    (fun _ _ moved kept => kept.renewed moved.1) stamped).mono
      (fun _ _ both => both.1) fun _ _ both => both.1

/-- Work on the record spares a record with members, whatever happens and whoever writes
meanwhile. -/
theorem spares_work (stamped : Stamped (path ns) s) :
    (upsert ns desired).checkedErrand.work.run.Meets Exchange (Renewed (path ns)) (Spares ns)
      (fun _ _ => True) s := by
  have checked : (upsert ns desired).check.run.Meets Exchange (Renewed (path ns)) (Spares ns)
      (fun _ _ => True) s := by
    refine spares_looking stamped fun existing s' _ _ => ?_
    cases existing with
    | none => trivial
    | some w =>
      simp only
      split <;> trivial
  refine meets_bind ((stamped_throughout stamped checked).imp fun result s' stamped' => ?_)
  cases result with
  | error e => trivial
  | ok _ => exact spares_looking stamped' fun existing s₁ => spares_settle

end MultiCluster.Globalnet.Record

namespace MultiCluster.Deploy

open Cluster
open Globalnet.Record (Renewed Stamped Spares)
open Server (Exchange)

variable {p : Plan} {step : Step} {ns : String} {s : Server} {e : Errand}

theorem namespace_of_path {ns' : String}
    (same : Globalnet.Record.path ns = Globalnet.Record.path ns') : ns = ns' := by
  simpa [Globalnet.Record.path, Globalnet.Record.maps, Collection.member, Collection.path,
    Collection.inNamespace] using same

theorem record_of_path (member : e ∈ p.errands step) (about : e.path = Globalnet.Record.path ns) :
    step = .globalnet ∧ ns = p.namespaceName ∧ e = p.recordErrand := by
  obtain ⟨isLast, only⟩ := record_of_resourcePath member
    ((congrArg _ about).trans Globalnet.Record.resourcePath_path)
  refine ⟨isLast, namespace_of_path ?_, only⟩
  rw [← about, only]
  rfl

theorem spares_of_errand (member : e ∈ p.errands step)
    (stamped : Stamped (Globalnet.Record.path ns) s) :
    e.work.run.Meets Exchange (Renewed (Globalnet.Record.path ns)) (Spares ns) (fun _ _ => True) s := by
  by_cases about : e.path = Globalnet.Record.path ns
  · obtain ⟨-, rfl, rfl⟩ := record_of_path member about
    exact Globalnet.Record.spares_work stamped
  · exact (errands_lawful member).asks.meets fun _ _ _ _ asked came =>
      Globalnet.Record.spares_elsewhere came asked (Ne.symm about)

theorem spares_of_performAll {es : List Errand} (sub : ∀ e ∈ es, e ∈ p.errands step)
    (stamped : Stamped (Globalnet.Record.path ns) s) :
    (Errand.performAll es).run.Meets Exchange (Renewed (Globalnet.Record.path ns)) (Spares ns)
      (fun _ s' => Stamped (Globalnet.Record.path ns) s') s := by
  induction es generalizing s with
  | nil => exact stamped
  | cons e rest ih =>
    rw [List.forall_mem_cons] at sub
    have first := Globalnet.Record.stamped_throughout stamped (spares_of_errand sub.1 stamped)
    refine meets_bind (first.imp fun result s₁ stamped₁ => ?_)
    cases result with
    | error error => exact stamped₁
    | ok outcome =>
      refine meets_bind ((ih sub.2 stamped₁).imp fun result s₂ stamped₂ => ?_)
      cases result <;> exact stamped₂

/-- A deployment spares the records with members, whatever happens and whoever writes meanwhile. -/
theorem spares_of_deployBroker {options : Options} {cluster : String} {cancelled : Bool}
    (stamped : Stamped (Globalnet.Record.path ns) s) :
    (deployBroker options cluster clusterAppliers cancelled).Meets (unreliable Exchange)
      (Renewed (Globalnet.Record.path ns)) (Spares ns) (fun _ _ => True) s := by
  unfold deployBroker
  cases plan options with
  | error e => exact meets_tell (fun _ => .refl) fun _ _ => trivial
  | ok p =>
    refine Program.Meets.imp (meets_runSteps
      (K := fun _ s => Stamped (Globalnet.Record.path ns) s) (fun _ => .refl)
      (fun _ _ _ moved kept => kept.renewed moved) ?_ stamped) fun _ _ _ => trivial
    intro step rest s₁ stamped₁
    rw [work_eq]
    exact meets_map ((spares_of_performAll (fun _ => id) stamped₁).imp
      fun _ _ stamped₂ _ _ => stamped₂)

end MultiCluster.Deploy
