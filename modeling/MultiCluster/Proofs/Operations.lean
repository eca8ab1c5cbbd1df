import MultiCluster.Proofs.KindReading
import MultiCluster.Proofs.Serving

/-! The operations on objects, against a server that answers every request and against one that may
fail at any of them. -/
namespace MultiCluster.Cluster

open Server (Exchange AboutOnly statusFailure notFound withVersion versionOf)

variable {α β : Type} {s s' : Server} {c : Collection} {k : Kind} {name resource : String}
  {v : Json} {r : Request}

/-! ### What the server answers -/

theorem Collection.resourcePath_member : Server.resourcePath (c.member name) =
    [c.kind.plural, name] := by
  obtain ⟨kind, ns⟩ := c
  cases kind <;> cases ns <;> rfl

theorem serve_getRequest : s.serve (c.getRequest name) =
    ((match s.objects.find? (c.member name) with
      | some v => .document 200 v
      | none => notFound (c.member name)), s) := by
  cases found : s.objects.find? (c.member name) <;>
    simp [Server.serve, Server.read, Collection.getRequest, Collection.resourcePath_member, found]

def applied (v : Json) (stored : Option Json) : Json := (stored.getD .null).mergePatch v

theorem serve_applyRequest : s.serve (c.applyRequest name v) =
    if s.objects.find? (c.member name) = some (applied v (s.objects.find? (c.member name))) then
      (.document 200 (applied v (s.objects.find? (c.member name))), s)
    else s.write (c.member name) (applied v (s.objects.find? (c.member name))) := by
  unfold Server.serve Server.patch Collection.applyRequest applied
  cases s.objects.find? (c.member name) with
  | none => simp
  | some stored =>
    simp only [Option.getD_some, Option.some.injEq]
    by_cases same : stored.mergePatch v = stored
    · simp [same]
    · simp [same, Ne.symm same]

theorem target_createRequest (named : Object.name? v = some name) :
    (c.createRequest v).target = c.member name := by
  have found : v.textAt? ["metadata", "name"] = some name := named
  simp [Request.target, Collection.createRequest, found, Collection.member]

theorem serve_createRequest (named : Object.name? v = some name) :
    s.serve (c.createRequest v) = match s.objects.find? (c.member name) with
    | some _ => (statusFailure 409 "AlreadyExists" ((c.member name).text ++ " already exists"), s)
    | none => s.write (c.member name) v := by
  have known : v.textAt? ["metadata", "name"] = some name := named
  have place : Collection.path c ++ [name] = c.member name := rfl
  cases found : s.objects.find? (c.member name) <;>
    simp [Server.serve, Server.create, Collection.createRequest, known, place, found]

theorem serve_replaceRequest : s.serve (c.replaceRequest name v) =
    match s.objects.find? (c.member name) with
    | none => (notFound (c.member name), s)
    | some stored =>
      if (versionOf v).isSome && versionOf v != versionOf stored then
        (statusFailure 409 "Conflict" ((c.member name).text ++ " was modified"), s)
      else s.write (c.member name) v := by
  unfold Server.serve Server.replace Collection.replaceRequest
  cases s.objects.find? (c.member name) <;> simp

/-! ### How replies are taken -/

def Kind.readBack (k : Kind) (v : Json) : Except Error Json :=
  match k.read v with
  | .ok w => .ok w
  | .error detail => .error (.api (.payload detail))

theorem Reply.read_document {reader : Json → Except String α} :
    Reply.read reader (.document 200 v) = match reader v with
      | .ok a => .ok a
      | .error detail => .error (.payload detail) := by
  rfl

theorem Reply.read_statusFailure {reader : Json → Except String α} {reason m : String} :
    Reply.read reader (statusFailure 409 reason m) = .error (.answer "Failure" m reason 409) := by
  rfl

theorem Reply.read_notFound {reader : Json → Except String α} {p : Path} :
    Reply.read reader (notFound p) =
      .error (.answer "Failure" (p.text ++ " not found") "NotFound" 404) := by
  rfl

theorem takeOptional_document : takeOptional k (.document 200 v) = match k.read v with
    | .ok w => .ok (some w)
    | .error detail => .error (.payload detail) := by
  rw [takeOptional, Reply.read_document]
  cases k.read v <;> rfl

theorem takeOptional_notFound {p : Path} : takeOptional k (notFound p) = .ok none := by
  rw [takeOptional, Reply.read_notFound]
  rfl

theorem Reply.read_of_isFailure {reader : Json → Except String α} {reply : Reply}
    (failure : reply.IsFailure) : ∃ e, reply.read reader = .error e := by
  unfold Reply.read
  cases taken : reply.payload with
  | error e => exact ⟨e, rfl⟩
  | ok p =>
    simp only [Payload.read]
    cases value : p.value with
    | error e => exact ⟨e, rfl⟩
    | ok v => exact absurd value (failure p v taken)

theorem takeOptional_of_isFailure {reply : Reply} (failure : reply.IsFailure) :
    ∀ w, takeOptional k reply ≠ .ok (some w) := by
  intro w
  obtain ⟨e, failed⟩ : ∃ e, reply.read k.read = .error e := Reply.read_of_isFailure failure
  unfold takeOptional
  rw [failed]
  cases e with
  | answer status message reason code => simp only; split <;> simp
  | _ => simp

/-! ### Work on a server that answers everything -/

def runOn (s : Server) (w : Work α) : Option (Except Error α) × Server :=
  Program.run Server.handler w.run s

theorem runOn_bind {x : Work α} {f : α → Work β} : runOn s (x >>= f) = match runOn s x with
    | (some (.ok a), s') => runOn s' (f a)
    | (some (.error e), s') => (some (.error e), s')
    | (none, s') => (none, s') := by
  unfold runOn
  rw [Program.run_action_bind]
  rcases Program.run Server.handler x.run s with ⟨_ | _ | _, _⟩ <;> rfl

theorem runOn_map {x : Work α} {f : α → β} :
    runOn s (f <$> x) = ((runOn s x).1.map (Except.map f), (runOn s x).2) := by
  rw [map_eq_pure_bind, runOn_bind]
  rcases runOn s x with ⟨_ | _ | _, _⟩ <;> rfl

theorem runOn_adapt {x : Work α} {f : Error → Error} :
    runOn s (x.adapt f) = ((runOn s x).1.map (Except.mapError f), (runOn s x).2) :=
  Program.run_adapt

theorem runOn_bind_of_ok {x : Work α} {f : α → Work β} {a : α}
    (ran : runOn s x = (some (.ok a), s')) : runOn s (x >>= f) = runOn s' (f a) := by
  rw [runOn_bind, ran]

theorem runOn_bind_of_error {x : Work α} {f : α → Work β} {e : Error}
    (ran : runOn s x = (some (.error e), s')) : runOn s (x >>= f) = (some (.error e), s') := by
  rw [runOn_bind, ran]

theorem runOn_bind_ok_iff {x : Work α} {f : α → Work β} {b : β} :
    runOn s (x >>= f) = (some (.ok b), s') ↔
      ∃ a s₁, runOn s x = (some (.ok a), s₁) ∧ runOn s₁ (f a) = (some (.ok b), s') := by
  rw [runOn_bind]
  rcases runOn s x with ⟨_ | _ | a, s₁⟩
  · simp
  · simp
  · constructor
    · exact fun ran => ⟨a, s₁, rfl, ran⟩
    · rintro ⟨_, _, ⟨⟩, ran⟩
      exact ran

theorem runOn_map_ok_iff {x : Work α} {f : α → β} {b : β} :
    runOn s (f <$> x) = (some (.ok b), s') ↔ ∃ a, runOn s x = (some (.ok a), s') ∧ f a = b := by
  rw [runOn_map]
  rcases runOn s x with ⟨_ | _ | a, s₁⟩
  · simp
  · simp [Except.map]
  · simp only [Option.map_some, Except.map, Prod.mk.injEq, Option.some.injEq, Except.ok.injEq]
    constructor
    · rintro ⟨same, rfl⟩
      exact ⟨a, ⟨rfl, rfl⟩, same⟩
    · rintro ⟨_, ⟨rfl, rfl⟩, same⟩
      exact ⟨same, rfl⟩

theorem runOn_adapt_ok_iff {x : Work α} {f : Error → Error} {a : α} :
    runOn s (x.adapt f) = (some (.ok a), s') ↔ runOn s x = (some (.ok a), s') := by
  rw [runOn_adapt]
  rcases runOn s x with ⟨_ | _ | _, _⟩ <;> simp

theorem faults_run {p : Program Calls α} (quiet : s.faults = []) :
    (p.run Server.handler s).2.faults = [] := by
  induction p generalizing s with
  | done a => exact quiet
  | never => exact quiet
  | ask c next ih =>
    cases c with
    | pause w => exact ih () quiet
    | send r =>
      refine ih _ ?_
      show (s.answer r).2.faults = []
      rw [Server.answer, quiet]
      exact Server.faults_serve.trans quiet

def blame (resource : String) : Except ApiError α → Except Error α
  | .ok a => .ok a
  | .error e => .error (Error.ofApi resource e)

theorem runOn_exchange {take : Reply → Except ApiError α} (quiet : s.faults = []) :
    runOn s (exchange resource r take) =
      (some (blame resource (take (s.serve r).1)), (s.serve r).2) := by
  have answer : s.answer r = s.serve r := by simp [Server.answer, quiet, Server.takeFault]
  rw [← answer]
  rfl

theorem runOn_persistently {w : Work α} {result : Except Error α}
    (ran : runOn s w = (some result, s')) (final : ∀ e, result = .error e → e.isTransient = false) :
    runOn s (persistently w) = (some result, s') :=
  run_retry ran final

/-- A single exchange that does not fail for a transient reason. -/
theorem runOn_persistently_exchange {take : Reply → Except ApiError α} (quiet : s.faults = [])
    (final : ∀ e, blame resource (take (s.serve r).1) = .error e → e.isTransient = false) :
    runOn s (persistently (exchange resource r take)) =
      (some (blame resource (take (s.serve r).1)), (s.serve r).2) :=
  runOn_persistently (runOn_exchange quiet) final

theorem readBack_final {e : Error} (failed : k.readBack v = .error e) : e.isTransient = false := by
  unfold Kind.readBack at failed
  split at failed
  · simp at failed
  · simp only [Except.error.injEq] at failed
    subst failed
    rfl

theorem blame_read_document :
    blame resource (Reply.read k.read (.document 200 v)) = k.readBack v := by
  rw [Reply.read_document]
  unfold Kind.readBack
  cases k.read v <;> rfl

def Kind.readStored (k : Kind) : Option Json → Except Error (Option Json)
  | none => .ok none
  | some v => (k.readBack v).map some

theorem map_readBack_final {f : Json → α} {e : Error} (failed : (k.readBack v).map f = .error e) :
    e.isTransient = false := by
  cases reading : k.readBack v with
  | ok w => simp [reading, Except.map] at failed
  | error e' =>
    simp only [reading, Except.map, Except.error.injEq] at failed
    exact failed ▸ readBack_final reading

theorem readStored_final {stored : Option Json} {e : Error}
    (failed : k.readStored stored = .error e) : e.isTransient = false := by
  cases stored with
  | none => cases failed
  | some v => exact map_readBack_final failed

/-- A look that is answered finds what is stored. -/
theorem blame_look : blame resource (takeOptional c.kind (s.serve (c.getRequest name)).1) =
    c.kind.readStored (s.objects.find? (c.member name)) := by
  rw [serve_getRequest]
  cases s.objects.find? (c.member name) with
  | none =>
    simp only [takeOptional_notFound]
    rfl
  | some v =>
    simp only [takeOptional_document, Kind.readStored, Kind.readBack]
    cases c.kind.read v <;> rfl

theorem runOn_find? (quiet : s.faults = []) : runOn s (c.find? resource name) =
    (some (c.kind.readStored (s.objects.find? (c.member name))), s) := by
  unfold Collection.find?
  rw [runOn_exchange quiet, blame_look, serve_getRequest]

theorem runOn_persistently_find? (quiet : s.faults = []) :
    runOn s (persistently (c.find? resource name)) =
      (some (c.kind.readStored (s.objects.find? (c.member name))), s) :=
  runOn_persistently (runOn_find? quiet) fun _ => readStored_final

theorem runOn_create (quiet : s.faults = []) (named : Object.name? v = some name)
    (absent : s.objects.find? (c.member name) = none) :
    runOn s (persistently (c.create resource v)) =
      (some (c.kind.readBack (withVersion (s.version + 1) v)), (s.write (c.member name) v).2) := by
  have served : s.serve (c.createRequest v) = s.write (c.member name) v := by
    rw [serve_createRequest named, absent]
  unfold Collection.create
  rw [runOn_persistently_exchange quiet] <;> rw [served]
  · exact congrArg (fun result => (some result, _)) blame_read_document
  · exact fun e failed => readBack_final (blame_read_document.symm.trans failed)

/-- A replacement that names no version, or the one that is stored, takes place. -/
theorem runOn_replace {stored : Json} (quiet : s.faults = [])
    (found : s.objects.find? (c.member name) = some stored)
    (current : versionOf v = none ∨ versionOf v = versionOf stored) :
    runOn s (persistently (c.replace resource name v)) =
      (some (c.kind.readBack (withVersion (s.version + 1) v)), (s.write (c.member name) v).2) := by
  have served : s.serve (c.replaceRequest name v) = s.write (c.member name) v := by
    rw [serve_replaceRequest, found]
    rcases current with none | same
    · simp [none]
    · simp [same]
  unfold Collection.replace
  rw [runOn_persistently_exchange quiet] <;> rw [served]
  · exact congrArg (fun result => (some result, _)) blame_read_document
  · exact fun e failed => readBack_final (blame_read_document.symm.trans failed)

/-! ### Work on a server that may fail -/

section Failing

variable {rely guarantee : Server → Server → Prop}

theorem meets_bind {x : Work α} {f : α → Work β} {post : Except Error β → Server → Prop}
    (first : x.run.Meets Exchange rely guarantee (fun result s' => match result with
      | .ok a => (f a).run.Meets Exchange rely guarantee post s'
      | .error e => post (.error e) s') s) :
    (x >>= f).run.Meets Exchange rely guarantee post s := by
  rw [ExceptT.run_bind]
  refine Program.Meets.bind (first.imp fun result s' done => ?_)
  cases result with
  | ok a => exact done
  | error e => exact done

theorem meets_map {x : Work α} {f : α → β} {post : Except Error β → Server → Prop}
    (first : x.run.Meets Exchange rely guarantee (fun result s' => post (result.map f) s') s) :
    (f <$> x).run.Meets Exchange rely guarantee post s := by
  rw [map_eq_pure_bind]
  refine meets_bind (first.imp fun result s' done => ?_)
  cases result with
  | ok a => exact done
  | error e => exact done

theorem meets_persistently {K : Server → Prop} {w : Work α}
    {post : Except Error α → Server → Prop} (refl : ∀ s, K s → guarantee s s)
    (stable : ∀ s s', K s → rely s s' → K s')
    (attempt : ∀ s, K s → w.run.Meets Exchange rely guarantee (fun result s' =>
      post result s' ∧ ∀ e, result = .error e → K s') s) (start : K s) :
    (persistently w).run.Meets Exchange rely guarantee post s := by
  refine meets_retry attempt ?_ start
  rintro wait s₀ ready s₁ moved - s₂ rfl
  have still := stable _ _ ready moved
  exact ⟨refl _ still, still⟩

theorem exchange_eq {take : Reply → Except ApiError α} : (exchange resource r take).run =
    .ask (I := Calls) (.send r) fun reply => .done (blame resource (take reply)) := by
  refine congrArg (Program.ask (I := Calls) (Call.send r)) (funext fun reply => ?_)
  show Program.done _ = _
  cases take reply <;> rfl

theorem meets_exchange {take : Reply → Except ApiError α} {post : Except Error α → Server → Prop}
    (each : ∀ s₁, rely s s₁ → ∀ reply s₂, Exchange (.send r) s₁ reply s₂ →
      guarantee s₁ s₂ ∧ post (blame resource (take reply)) s₂) :
    (exchange resource r take).run.Meets Exchange rely guarantee post s := by
  rw [exchange_eq]
  exact fun s₁ moved reply s₂ came => each s₁ moved reply s₂ came

/-- Repeated exchanges, from what one exchange does in every state that `K` allows. -/
theorem meets_exchanges {K : Server → Prop} {take : Reply → Except ApiError α}
    {post : Except Error α → Server → Prop} (refl : ∀ s, K s → guarantee s s)
    (stable : ∀ s s', K s → rely s s' → K s')
    (each : ∀ s, K s → ∀ reply s', Exchange (.send r) s reply s' →
      guarantee s s' ∧ K s' ∧ post (blame resource (take reply)) s') (start : K s) :
    (persistently (exchange resource r take)).run.Meets Exchange rely guarantee post s := by
  refine meets_persistently (K := K) refl stable ?_ start
  intro s₀ ready
  refine meets_exchange fun s₁ moved reply s₂ came => ?_
  obtain ⟨kept, again, after⟩ := each s₁ (stable _ _ ready moved) reply s₂ came
  exact ⟨kept, after, fun _ _ => again⟩

theorem blame_eq_ok_iff {result : Except ApiError α} {a : α} :
    blame resource result = .ok a ↔ result = .ok a := by
  cases result <;> simp [blame]

/-- A look changes nothing, and an object that it finds is stored. -/
theorem looked_of_exchange (resource : String) {reply : Reply}
    (came : Exchange (.send (c.getRequest name)) s reply s') : s' = s ∧
    ∀ w, blame resource (takeOptional c.kind reply) = .ok (some w) →
      ∃ v, s'.objects.find? (c.member name) = some v ∧ c.kind.read v = .ok w := by
  have unchanged : s' = s := by
    rcases came with answered | ⟨-, nothing | all⟩
    · rw [serve_getRequest] at answered
      exact congrArg Prod.snd answered
    · exact nothing
    · rw [all, serve_getRequest]
  subst unchanged
  refine ⟨rfl, fun w found => ?_⟩
  rw [blame_eq_ok_iff] at found
  rcases came with answered | ⟨failure, -⟩
  · rw [serve_getRequest] at answered
    obtain rfl := congrArg Prod.fst answered
    cases stored : s'.objects.find? (c.member name) with
    | none => simp [stored, takeOptional_notFound] at found
    | some v =>
      simp only [stored, takeOptional_document] at found
      cases reading : c.kind.read v with
      | error detail => simp [reading] at found
      | ok u =>
        simp only [reading, Except.ok.injEq, Option.some.injEq] at found
        exact ⟨v, rfl, found ▸ reading⟩
  · exact absurd found (takeOptional_of_isFailure failure w)

/-- Looking for an object changes nothing, and an object that it finds is stored then. -/
theorem meets_find? (c : Collection) (resource name : String) (refl : ∀ s, rely s s)
    (trans : ∀ s₁ s₂ s₃, rely s₁ s₂ → rely s₂ s₃ → rely s₁ s₃) :
    (persistently (c.find? resource name)).run.Meets Exchange rely (fun s s' => s' = s)
      (fun result s' => rely s s' ∧ ∀ w, result = .ok (some w) →
        ∃ v, s'.objects.find? (c.member name) = some v ∧ c.kind.read v = .ok w) s := by
  refine meets_exchanges (K := rely s) (fun _ _ => rfl) (fun s₁ s₂ => trans _ _ _) ?_ (refl s)
  intro s₁ moved reply s₂ came
  obtain ⟨rfl, found⟩ := looked_of_exchange _ came
  exact ⟨rfl, moved, moved, found⟩

end Failing

def Looks (call : Call) : Prop := ∀ r, call = .send r → r.method = .get

theorem meets_of_looks {p : Program Calls α} (looks : p.Asks Looks) :
    p.Meets Exchange Eq (fun _ s' => s' = s) (fun _ s' => s' = s) s := by
  refine looks.keeps ?_ rfl
  rintro call s₁ reply s₂ look came rfl
  rcases came.cases with rfl | ⟨r, same, rfl⟩
  · rfl
  · simp [Server.serve, look r same]

/-- What the server does with a call, if no fault lies in wait, is one of the things that may come
of it. -/
theorem exchange_of_handler {call : Call} {a : Calls.Answer call} (quiet : s.faults = [])
    (answered : Server.handler call s = (some a, s')) : Exchange call s a s' ∧ s'.faults = [] := by
  cases call with
  | pause wait =>
    obtain ⟨-, rfl⟩ := Prod.mk.inj answered
    exact ⟨rfl, quiet⟩
  | send r =>
    have answer : s.answer r = s.serve r := by simp [Server.answer, quiet, Server.takeFault]
    simp only [Server.handler, answer, Prod.mk.injEq] at answered
    obtain ⟨same, rfl⟩ := answered
    obtain rfl := Option.some.inj (show some _ = some a from same)
    exact ⟨.inl rfl, Server.faults_serve.trans quiet⟩

/-- A run on a server that answers is one of the ways of the work. -/
theorem leads_of_runOn {w : Work α} {result : Except Error α} (quiet : s.faults = [])
    (ran : runOn s w = (some result, s')) :
    Program.Leads Exchange w.run s (.done result) s' :=
  Program.leads_of_run id (fun s => s.faults = []) (fun _ _ _ _ => exchange_of_handler) quiet ran

/-- What work meets, its results on a server that answers meet. -/
theorem result_of_runOn {w : Work α} {result : Except Error α}
    {guarantee : Server → Server → Prop} {post : Except Error α → Server → Prop}
    (meets : w.run.Meets Exchange Eq guarantee post s) (quiet : s.faults = [])
    (ran : runOn s w = (some result, s')) : post result s' :=
  meets.result (leads_of_runOn quiet ran)

/-! ### Writing where nobody else writes -/

/-- Either nothing was written over what was stored, or this object was, under some version. -/
def Wrote (p : Path) (before : Option Json) (v : Json) (s : Server) : Prop :=
  s.objects.find? p = before ∨ ∃ n, s.objects.find? p = some (withVersion n v)

def WroteWell (c : Collection) (name : String) (v : Json) (s : Server) : Prop :=
  ∃ n, s.objects.find? (c.member name) = some (withVersion n v) ∧ c.kind.Reads (withVersion n v)

theorem wroteWell_of_read {w : Json} (written : s' = (s.write (c.member name) v).2)
    (ok : Reply.read c.kind.read (s.write (c.member name) v).1 = .ok w) :
    WroteWell c name v s' := by
  subst written
  refine ⟨s.version + 1, Server.find?_write_self, ?_⟩
  simp only [Server.write, Reply.read_document] at ok
  cases reading : c.kind.read (withVersion (s.version + 1) v) with
  | error detail => simp [reading] at ok
  | ok u => exact ⟨u, reading⟩

/-- A reply that can be read was given by a server that did what was asked. -/
theorem answered_of_read {reader : Json → Except String α} {reply : Reply} {a : α}
    (came : Exchange (.send r) s reply s') (ok : reply.read reader = .ok a) :
    reply = (s.serve r).1 ∧ s' = (s.serve r).2 := by
  rcases came with answered | ⟨failure, -⟩
  · exact ⟨congrArg Prod.fst answered, congrArg Prod.snd answered⟩
  · obtain ⟨e, failed⟩ : ∃ e, reply.read reader = .error e := Reply.read_of_isFailure failure
    rw [failed] at ok
    cases ok

/-- A creation writes only where nothing is stored, and one that succeeds has stored the object. One
that fails may have stored it all the same. -/
theorem meets_create {before : Option Json} (named : Object.name? v = some name)
    (start : s.objects.find? (c.member name) = before) :
    (persistently (c.create resource v)).run.Meets Exchange Eq
      (fun _ s' => Wrote (c.member name) before v s' ∧
        (before ≠ none → s'.objects.find? (c.member name) = before))
      (fun result s' => (Wrote (c.member name) before v s' ∧
        (before ≠ none → s'.objects.find? (c.member name) = before)) ∧
        ∀ w, result = .ok w → WroteWell c name v s') s := by
  refine meets_exchanges (fun _ ready => ready) (fun _ _ ready same => same ▸ ready) ?_
    ⟨.inl start, fun _ => start⟩
  intro s₁ ready reply s₂ came
  have kept : Wrote (c.member name) before v s₂ ∧
      (before ≠ none → s₂.objects.find? (c.member name) = before) := by
    rcases came.cases with rfl | ⟨r, same, rfl⟩
    · exact ready
    · obtain rfl := Call.send.inj same
      rw [serve_createRequest named]
      cases stored : s₁.objects.find? (c.member name) with
      | some u => exact ready
      | none =>
        refine ⟨.inr ⟨_, Server.find?_write_self⟩, fun present => ?_⟩
        exact absurd ((ready.2 present).symm.trans stored) present
  refine ⟨kept, kept, kept, fun w ok => ?_⟩
  rw [blame_eq_ok_iff] at ok
  obtain ⟨rfl, rfl⟩ := answered_of_read came ok
  rw [serve_createRequest named] at ok ⊢
  cases stored : s₁.objects.find? (c.member name) with
  | some u => simp [stored, Reply.read_statusFailure] at ok
  | none =>
    simp only [stored] at ok
    exact wroteWell_of_read rfl ok

/-- A replacement that succeeds has stored the object. One that fails may have stored it all the
same. -/
theorem meets_replace {before : Option Json} (start : s.objects.find? (c.member name) = before) :
    (persistently (c.replace resource name v)).run.Meets Exchange Eq
      (fun _ s' => Wrote (c.member name) before v s')
      (fun result s' => Wrote (c.member name) before v s' ∧
        ∀ w, result = .ok w → WroteWell c name v s') s := by
  refine meets_exchanges (fun _ ready => ready) (fun _ _ ready same => same ▸ ready) ?_ (.inl start)
  intro s₁ ready reply s₂ came
  have kept : Wrote (c.member name) before v s₂ := by
    rcases came.cases with rfl | ⟨r, same, rfl⟩
    · exact ready
    · obtain rfl := Call.send.inj same
      rw [serve_replaceRequest]
      split
      · exact ready
      · split
        · exact ready
        · exact .inr ⟨_, Server.find?_write_self⟩
  refine ⟨kept, kept, kept, fun w ok => ?_⟩
  rw [blame_eq_ok_iff] at ok
  obtain ⟨rfl, rfl⟩ := answered_of_read came ok
  rw [serve_replaceRequest] at ok ⊢
  cases stored : s₁.objects.find? (c.member name) with
  | none => simp [stored, Reply.read_notFound] at ok
  | some u =>
    simp only [stored] at ok ⊢
    split at ok
    · simp [Reply.read_statusFailure] at ok
    · next current =>
      rw [if_neg current]
      exact wroteWell_of_read rfl ok

/-! ### Which requests are made -/

theorem asks_bind {P : Call → Prop} {x : Work α} {f : α → Work β} (first : x.run.Asks P)
    (second : ∀ a, (f a).run.Asks P) : (x >>= f).run.Asks P :=
  Program.asks_action_bind first second

theorem asks_map {P : Call → Prop} {x : Work α} {f : α → β} (asks : x.run.Asks P) :
    (f <$> x).run.Asks P := by
  rw [map_eq_pure_bind]
  exact asks_bind asks fun _ => trivial

theorem asks_adapt {P : Call → Prop} {x : Work α} {f : Error → Error} (asks : x.run.Asks P) :
    (x.adapt f).run.Asks P :=
  Program.Asks.bind asks fun _ => trivial

theorem asks_exchange {take : Reply → Except ApiError α} :
    (exchange resource r take).run.Asks fun call : Call => call = .send r :=
  ⟨rfl, fun _ => trivial⟩

/-- Repeating work adds nothing to its requests but pauses. -/
theorem asks_persistently {P : Call → Prop} {w : Work α} (attempt : w.run.Asks P)
    (pauses : ∀ wait, P (.pause wait)) : (persistently w).run.Asks P :=
  asks_retry attempt fun wait => ⟨pauses wait, fun _ => trivial⟩

end MultiCluster.Cluster
