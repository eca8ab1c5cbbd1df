import MultiCluster.Proofs.SharedRecord

/-! Operations that look at an object and then write it, while other clients write it too. Such an
operation writes only over what it looked at: a creation is refused where something is stored, and a
replacement names the version that was read, which no later object has. A refusal ends the operation,
so what others wrote since stands. -/
namespace MultiCluster

namespace Program

variable {I : Interface} {α β ε σ : Type} {E : Surroundings I σ} {rely moves : σ → σ → Prop}
  {fits : (r : I.Request) → (I.Answer r → Program I α) → σ → Prop} {post : α → σ → Prop}
  {p p' : Program I α} {s s' : σ}

/-- Before each request others may move the state along `rely`. Each request, with what becomes of
its answer, fits the state in which it is made, and a result comes in a state that satisfies
`post`. -/
def Heeds (E : Surroundings I σ) (rely : σ → σ → Prop)
    (fits : (r : I.Request) → (I.Answer r → Program I α) → σ → Prop) (post : α → σ → Prop) :
    Program I α → σ → Prop
  | .done a, s => post a s
  | .never, _ => True
  | .ask r next, s => ∀ s₁, rely s s₁ →
      fits r next s₁ ∧ ∀ a s₂, E r s₁ a s₂ → Heeds E rely fits post (next a) s₂

inductive Among (E : Surroundings I σ) (moves : σ → σ → Prop) :
    Program I α → σ → Program I α → σ → Prop
  | here {p : Program I α} {s : σ} : Among E moves p s p s
  | moved {p p' : Program I α} {s s₁ s' : σ} (move : moves s s₁)
      (later : Among E moves p s₁ p' s') : Among E moves p s p' s'
  | answered {r : I.Request} {next : I.Answer r → Program I α} {a : I.Answer r} {s s₁ s' : σ}
      {p : Program I α} (came : E r s a s₁) (later : Among E moves (next a) s₁ p s') :
      Among E moves (.ask r next) s p s'

theorem Among.trans {p'' : Program I α} {s'' : σ} (first : Among E moves p s p' s')
    (second : Among E moves p' s' p'' s'') : Among E moves p s p'' s'' := by
  induction first with
  | here => exact second
  | moved move _ ih => exact .moved move (ih second)
  | answered came _ ih => exact .answered came (ih second)

theorem Heeds.imp {post' : α → σ → Prop} (heeds : p.Heeds E rely fits post s)
    (after : ∀ a s, post a s → post' a s) : p.Heeds E rely fits post' s := by
  induction p generalizing s with
  | done a => exact after a s heeds
  | never => trivial
  | ask r next ih =>
    intro s₁ moved
    obtain ⟨fit, later⟩ := heeds s₁ moved
    exact ⟨fit, fun a s₂ came => ih a (later a s₂ came)⟩

/-- Of a program that goes on with the result, the requests still fit if they did before. -/
theorem Heeds.bind {fits' : (r : I.Request) → (I.Answer r → Program I β) → σ → Prop}
    {post : β → σ → Prop} {f : α → Program I β}
    (first : p.Heeds E rely fits (fun a s => (f a).Heeds E rely fits' post s) s)
    (onward : ∀ r next s, fits r next s → fits' r (fun a => (next a).bind f) s) :
    (p.bind f).Heeds E rely fits' post s := by
  induction p generalizing s with
  | done a => exact first
  | never => trivial
  | ask r next ih =>
    intro s₁ moved
    obtain ⟨fit, later⟩ := first s₁ moved
    exact ⟨onward r next s₁ fit, fun a s₂ came => ih a (later a s₂ came)⟩

/-- What is heeded at first is heeded on all ways. -/
theorem Heeds.of_among (heeds : p.Heeds E (Relation.ReflTransGen moves) fits (fun _ _ => True) s)
    (among : Among E moves p s p' s') :
    p'.Heeds E (Relation.ReflTransGen moves) fits (fun _ _ => True) s' := by
  induction among with
  | here => exact heeds
  | @moved p _ _ _ _ move _ ih =>
    refine ih ?_
    cases p with
    | done a => trivial
    | never => trivial
    | ask r next => exact fun s₂ more => heeds s₂ (.head move more)
  | answered came _ ih => exact ih ((heeds _ .refl).2 _ _ came)

/-- What others and every fitting request keep true is true on all ways. -/
theorem Heeds.keeps {J : σ → Prop}
    (heeds : p.Heeds E (Relation.ReflTransGen moves) fits (fun _ _ => True) s)
    (among : Among E moves p s p' s') (stable : ∀ s s', moves s s' → J s → J s')
    (each : ∀ r next s a s', fits r next s → E r s a s' → J s → J s') (start : J s) : J s' := by
  induction among with
  | here => exact start
  | @moved p _ s s₁ _ move _ ih =>
    refine ih ?_ (stable _ _ move start)
    exact heeds.of_among (.moved move .here)
  | answered came _ ih =>
    obtain ⟨fit, later⟩ := heeds _ .refl
    exact ih (later _ _ came) (each _ _ _ _ _ fit came start)

/-- Repeated calls heed what one call heeds, if a failed call leaves behind a state from which it
may be made again. -/
theorem heeds_retry {J : σ → Prop} {b : Backoff} {retryable : ε → Bool}
    {wait : Duration → Program I Unit} {call : Program I (Except ε α)}
    {fits : (r : I.Request) → (I.Answer r → Program I (Except ε α)) → σ → Prop}
    {post : Except ε α → σ → Prop}
    (attempt : ∀ s, J s → call.Heeds E rely fits (fun result s' =>
      post result s' ∧ ∀ e, result = .error e → J s') s)
    (waiting : ∀ w (rest : Program I (Except ε α)) s, J s →
      (∀ s', J s' → rest.Heeds E rely fits post s') →
      ((wait w).bind fun _ => rest).Heeds E rely fits post s)
    (onward : ∀ f : Except ε α → Program I (Except ε α),
      (∀ e, retryable e = false → f (.error e) = .done (.error e)) →
      ∀ r next s, fits r next s → fits r (fun a => (next a).bind f) s)
    (start : J s) : (retry b retryable wait call).Heeds E rely fits post s := by
  have repeated (left n : Nat) : ∀ s, J s →
      (retryFrom b retryable wait call left n).Heeds E rely fits post s := by
    induction left generalizing n with
    | zero => exact fun s start => (attempt s start).imp fun _ _ done => done.1
    | succ left ih =>
      intro s start
      refine Heeds.bind ((attempt s start).imp fun result s' done => ?_)
        (onward _ fun e final => by simp [final])
      cases result with
      | ok a => exact done.1
      | error e =>
        simp only
        split
        · exact waiting _ _ s' (done.2 e rfl) fun s₂ ready => ih (n + 1) s₂ ready
        · exact done.1
  exact repeated _ 1 s start

end Program

namespace Cluster

open Program (Among Heeds)
open Server (Exchange statusFailure withVersion versionOf)
open Globalnet.Record (Stamped)

/-- A server, and what another client wrote at a path since it was last looked at, if that has not
been removed. -/
structure Contest where
  server : Server
  theirs : Option Json

/-- What other clients may do: write the object, under a version that was never given before, remove
it, or do something else. -/
inductive Moves (p : Path) : Contest → Contest → Prop
  | writes {s s' : Server} {t : Option Json} {v : Json} {n : Nat}
      (stored : s'.objects.find? p = some v) (version : versionOf v = some (Text.decimal n))
      (fresh : s.version < n) (given : n ≤ s'.version) : Moves p ⟨s, t⟩ ⟨s', some v⟩
  | removes {s s' : Server} {t : Option Json} (gone : s'.objects.find? p = none)
      (grew : s.version ≤ s'.version) : Moves p ⟨s, t⟩ ⟨s', none⟩
  | elsewhere {s s' : Server} {t : Option Json}
      (same : s'.objects.find? p = s.objects.find? p) (grew : s.version ≤ s'.version) :
      Moves p ⟨s, t⟩ ⟨s', t⟩

def Contested : Surroundings Calls Contest
  | .pause _, c, _, c' => c' = c
  | .send r, c, (reply : Reply), c' => Exchange (.send r) c.server reply c'.server ∧
      c'.theirs = if r.method = .get then none else c.theirs

def Stands (p : Path) (c : Contest) : Prop :=
  ∀ v, c.theirs = some v → c.server.objects.find? p = some v

def Yields {α : Type} (resource : String) : (call : Call) →
    (Calls.Answer call → Program Calls (Except Error α)) → Contest → Prop
  | .pause _, _, _ => True
  | .send r, next, c => r.method ≠ .get → ∀ v, c.theirs = some v →
      ∃ reason message, c.server.serve r = (statusFailure 409 reason message, c.server) ∧
        next (statusFailure 409 reason message) = .done (.error (.conflict resource message))

variable {α β : Type} {p : Path} {c c' : Contest} {r : Request} {resource : String} {v : Json}

theorem yields_onward {f : Except Error α → Program Calls (Except Error β)}
    (final : ∀ m, f (.error (.conflict resource m)) = .done (.error (.conflict resource m)))
    (call : Call) (next : Calls.Answer call → Program Calls (Except Error α))
    (yields : Yields resource call next c) :
    Yields resource call (fun a => (next a).bind f) c := by
  cases call with
  | pause w => trivial
  | send r =>
    intro writes v theirs
    obtain ⟨reason, message, refused, ended⟩ := yields writes v theirs
    exact ⟨reason, message, refused, (congrArg (Program.bind · f) ended).trans (final message)⟩

theorem stands_moves (move : Moves p c c') (stands : Stands p c) : Stands p c' := by
  cases move with
  | writes stored => exact fun w same => Option.some.inj same ▸ stored
  | removes => exact fun w same => by cases same
  | elsewhere same => exact fun w theirs => same.trans (stands w theirs)

/-- A request that is refused wherever others wrote leaves alone what they wrote. -/
theorem stands_request {reply : Reply}
    (refused : r.method ≠ .get → ∀ v, c.theirs = some v → (c.server.serve r).2 = c.server)
    (came : Contested (.send r) c reply c') (stands : Stands p c) : Stands p c' := by
  obtain ⟨exchange, ghost⟩ := came
  intro v theirs
  rw [ghost] at theirs
  split at theirs
  · cases theirs
  · next writes =>
    have kept : c'.server = c.server := by
      rcases exchange.cases with same | ⟨r', same, done⟩
      · exact same
      · obtain rfl := Call.send.inj same
        rw [done, refused writes v theirs]
    rw [kept]
    exact stands v theirs

theorem stands_contested {call : Call} {next : Calls.Answer call → Program Calls (Except Error α)}
    {a : Calls.Answer call} (yields : Yields resource call next c)
    (came : Contested call c a c') (stands : Stands p c) : Stands p c' := by
  cases call with
  | pause w =>
    obtain rfl : c' = c := came
    exact stands
  | send r =>
    refine stands_request (fun writes v theirs => ?_) came stands
    obtain ⟨_, _, refused, -⟩ := yields writes v theirs
    rw [refused]

theorem stamped_moves (move : Moves p c c') (stamped : Stamped p c.server) :
    Stamped p c'.server := by
  cases move with
  | writes stored version fresh given =>
    intro w found
    obtain rfl := Option.some.inj (found.symm.trans stored)
    refine ⟨_, version, fun m later same => ?_⟩
    rw [Text.decimal_injective same] at given
    exact absurd later (Nat.not_lt.mpr given)
  | removes gone =>
    intro w found
    rw [gone] at found
    cases found
  | elsewhere same grew =>
    intro w found
    obtain ⟨version, known, past⟩ := stamped w (same.symm.trans found)
    exact ⟨version, known, fun n later => past n (grew.trans_lt later)⟩

theorem throughout {K : Contest → Prop} (each : ∀ c c', Moves p c c' → K c → K c') :
    ∀ c c', K c → Relation.ReflTransGen (Moves p) c c' → K c' := by
  intro c c' start moved
  induction moved with
  | refl => exact start
  | tail _ move ih => exact each _ _ move ih

section Heeding

variable {rely : Contest → Contest → Prop}

theorem heeds_bind {x : Work α} {f : α → Work β} {post : Except Error β → Contest → Prop}
    (first : x.run.Heeds Contested rely (Yields resource) (fun result c' => match result with
      | .ok a => (f a).run.Heeds Contested rely (Yields resource) post c'
      | .error e => post (.error e) c') c) :
    (x >>= f).run.Heeds Contested rely (Yields resource) post c := by
  rw [ExceptT.run_bind]
  refine Heeds.bind (first.imp fun result c' done => ?_)
    fun call next c yields => yields_onward (fun _ => ?_) call next yields
  · cases result with
    | ok a => exact done
    | error e => exact done
  · rfl

/-- Repeated exchanges, from what one exchange does in every state that `K` allows. -/
theorem heeds_exchanges {K : Contest → Prop} {take : Reply → Except ApiError α}
    {post : Except Error α → Contest → Prop}
    (stable : ∀ c c', K c → rely c c' → K c')
    (each : ∀ c, K c → ∀ reply c', Contested (.send r) c reply c' →
      K c' ∧ post (blame resource (take reply)) c')
    (refuses : ∀ c, K c → r.method ≠ .get → ∀ v, c.theirs = some v → ∃ reason message,
      c.server.serve r = (statusFailure 409 reason message, c.server) ∧
        take (statusFailure 409 reason message) =
          .error (.answer "Failure" message reason 409)) (start : K c) :
    (persistently (exchange resource r take)).run.Heeds Contested rely (Yields resource) post c := by
  refine Program.heeds_retry (J := K) ?_ ?_ ?_ start
  · intro c₀ ready
    rw [exchange_eq]
    intro c₁ moved
    have still := stable _ _ ready moved
    refine ⟨fun writes v theirs => ?_, fun reply c₂ came => ?_⟩
    · obtain ⟨reason, message, refused, taken⟩ := refuses c₁ still writes v theirs
      exact ⟨reason, message, refused, congrArg (fun t => Program.done (blame resource t)) taken⟩
    · obtain ⟨again, after⟩ := each c₁ still reply c₂ came
      exact ⟨after, fun _ _ => again⟩
  · rintro w rest c₀ ready later c₁ moved
    refine ⟨trivial, ?_⟩
    rintro - c₂ rfl
    exact later _ (stable _ _ ready moved)
  · intro f final call next c₀ yields
    exact yields_onward (fun m => final _ rfl) call next yields

end Heeding

/-- The object at a path is no longer the one with a certain version, if others wrote it. -/
structure Behind (p : Path) (old : String) (c : Contest) : Prop where
  stands : Stands p c
  past (n : Nat) : c.server.version < n → old ≠ Text.decimal n
  other (v : Json) : c.theirs = some v → versionOf v ≠ some old

theorem behind_moves {old : String} (move : Moves p c c') (behind : Behind p old c) :
    Behind p old c' := by
  have stands := stands_moves move behind.stands
  cases move with
  | writes stored version fresh given =>
    refine ⟨stands, fun m later => behind.past m ((fresh.trans_le given).trans later), ?_⟩
    rintro w ⟨⟩ same
    rw [version] at same
    exact behind.past _ fresh (Option.some.inj same).symm
  | removes _ grew =>
    exact ⟨stands, fun m later => behind.past m (grew.trans_lt later), fun w same => by cases same⟩
  | elsewhere _ grew =>
    exact ⟨stands, fun m later => behind.past m (grew.trans_lt later), behind.other⟩

theorem serve_create_contested {coll : Collection} {name : String} {body : Json}
    (named : Object.name? body = some name) (stands : Stands (coll.member name) c)
    (theirs : c.theirs = some v) : c.server.serve (coll.createRequest body) =
      (statusFailure 409 "AlreadyExists" ((coll.member name).text ++ " already exists"),
        c.server) := by
  rw [serve_createRequest named, stands v theirs]

theorem serve_replace_contested {coll : Collection} {name old : String} {body : Json}
    (names : versionOf body = some old) (behind : Behind (coll.member name) old c)
    (theirs : c.theirs = some v) : c.server.serve (coll.replaceRequest name body) =
      (statusFailure 409 "Conflict" ((coll.member name).text ++ " was modified"), c.server) := by
  have differs : versionOf body ≠ versionOf v := by
    rw [names]
    exact (behind.other v theirs).symm
  rw [serve_replaceRequest, behind.stands v theirs]
  simp only [names, Option.isSome_some, bne_iff_ne.mpr (names ▸ differs), Bool.and_self, if_true]

/-- A write by another client is one of the moves. -/
theorem moves_write {s : Server} {t : Option Json} (ok : Object.HasMetadata v) :
    Moves p ⟨s, t⟩ ⟨(s.write p v).2, some (withVersion (s.version + 1) v)⟩ :=
  .writes Server.find?_write_self (Server.versionOf_withVersion ok) (Nat.lt_succ_self _) le_rfl

theorem among_of_leads {x x' : Program Calls α} {s s' : Server}
    (leads : Program.Leads Exchange x s x' s') :
    Among Contested (Moves p) x ⟨s, none⟩ x' ⟨s', none⟩ := by
  induction leads with
  | here => exact .here
  | @answered call _ _ _ _ _ _ came _ ih =>
    refine .answered ?_ ih
    cases call with
    | pause w => exact congrArg (Contest.mk · none) came
    | send r => exact ⟨came, by simp⟩

namespace Upsert

structure Bound (u : Upsert) : Prop where
  named : Object.name? u.created = some u.name
  bound {v w : Json} (reading : u.collection.kind.read v = .ok w) :
    versionOf (u.replacement w) = versionOf v

variable {u : Upsert}

theorem heeds_look (stamped : Stamped u.path c.server) :
    (persistently (u.collection.find? u.label u.name)).run.Heeds Contested
      (Relation.ReflTransGen (Moves u.path)) (Yields u.label)
      (fun result c' => Stamped u.path c'.server ∧ c'.theirs = none ∧
        ∀ w, result = .ok (some w) → ∃ v, c'.server.objects.find? u.path = some v ∧
          u.collection.kind.read v = .ok w) c := by
  refine heeds_exchanges (K := fun c => Stamped u.path c.server)
    (throughout fun _ _ => stamped_moves) ?_ ?_ stamped
  · intro c₁ ready reply c₂ came
    obtain ⟨same, found⟩ := looked_of_exchange u.label came.1
    have still : Stamped u.path c₂.server := same ▸ ready
    exact ⟨still, still, came.2, found⟩
  · exact fun _ _ writes => absurd rfl writes

theorem heeds_create (named : Object.name? u.created = some u.name) (stands : Stands u.path c) :
    (persistently (u.collection.create u.label u.created)).run.Heeds Contested
      (Relation.ReflTransGen (Moves u.path)) (Yields u.label) (fun _ _ => True) c := by
  refine heeds_exchanges (K := Stands u.path) (throughout fun _ _ => stands_moves) ?_ ?_ stands
  · intro c₁ ready reply c₂ came
    refine ⟨stands_request (fun _ v theirs => ?_) came ready, trivial⟩
    rw [serve_create_contested named ready theirs]
  · intro c₁ ready _ v theirs
    exact ⟨_, _, serve_create_contested named ready theirs, Reply.read_statusFailure⟩

theorem heeds_replace {body : Json} {old : String} (names : versionOf body = some old)
    (behind : Behind u.path old c) :
    (persistently (u.collection.replace u.label u.name body)).run.Heeds Contested
      (Relation.ReflTransGen (Moves u.path)) (Yields u.label) (fun _ _ => True) c := by
  refine heeds_exchanges (K := Behind u.path old) (throughout fun _ _ => behind_moves) ?_ ?_ behind
  · intro c₁ ready reply c₂ came
    have refused (writes : Method.put ≠ .get) (v : Json) (theirs : c₁.theirs = some v) :
        (c₁.server.serve (u.collection.replaceRequest u.name body)).2 = c₁.server := by
      rw [serve_replace_contested names ready theirs]
    have ghost : c₂.theirs = c₁.theirs := came.2
    refine ⟨⟨stands_request refused came ready.stands, fun n later => ?_, ?_⟩, trivial⟩
    · exact ready.past n (came.1.version.trans_lt later)
    · rw [ghost]
      exact ready.other
  · intro c₁ ready _ v theirs
    exact ⟨_, _, serve_replace_contested names ready theirs, Reply.read_statusFailure⟩

/-- An operation writes only over what it looked at, whatever others do meanwhile. -/
theorem heeds_work (bound : u.Bound) (stamped : Stamped u.path c.server) :
    u.work.run.Heeds Contested (Relation.ReflTransGen (Moves u.path)) (Yields u.label)
      (fun _ _ => True) c := by
  refine heeds_bind ((heeds_look stamped).imp fun result c₁ looked => ?_)
  obtain ⟨stamped₁, fresh, found⟩ := looked
  have stands : Stands u.path c₁ := fun v theirs => by
    rw [fresh] at theirs
    cases theirs
  rcases result with e | _ | w
  · trivial
  · refine heeds_bind ((heeds_create bound.named stands).imp fun result _ _ => ?_)
    cases result <;> trivial
  · simp only [settle]
    cases u.keeps w with
    | error e => trivial
    | ok will =>
      cases will with
      | true => trivial
      | false =>
        obtain ⟨v, stored, reading⟩ := found w rfl
        obtain ⟨old, version, past⟩ := stamped₁ v stored
        have behind : Behind u.path old c₁ := by
          refine ⟨stands, past, fun v theirs => ?_⟩
          rw [fresh] at theirs
          cases theirs
        refine heeds_bind ((heeds_replace ((bound.bound reading).trans version) behind).imp
          fun result _ _ => ?_)
        cases result <;> trivial

end Upsert
end Cluster

namespace Deploy

open Cluster
open Program (Among)
open Server (statusFailure withVersion)
open Globalnet.Record (Stamped)

inductive Contender where
  | broker (namespaceName : String) (spec : BrokerSpec)
  | deployment (o : Operator)
  | record (namespaceName : String) (desired : Globalnet.Record)

namespace Contender

def work : Contender → Work Outcome
  | .broker ns spec => BrokerObject.ensure ns spec
  | .deployment o => o.ensureDeployment
  | .record ns desired => Globalnet.Record.ensureStored ns desired

def upsert : Contender → Upsert
  | .broker ns spec => BrokerObject.upsert ns spec
  | .deployment o => o.upsert
  | .record ns desired => Globalnet.Record.upsert ns desired

def path (o : Contender) : Path := o.upsert.path

def label (o : Contender) : String := o.upsert.label

theorem work_eq (o : Contender) : o.work = o.upsert.work := by
  cases o with
  | broker ns spec => exact BrokerObject.ensure_eq
  | deployment o => exact Operator.ensureDeployment_eq
  | record ns desired => exact Globalnet.Record.ensureStored_eq

theorem upsert_bound (o : Contender) : o.upsert.Bound := by
  cases o with
  | broker ns spec =>
    refine ⟨BrokerObject.upsert_sound.named, fun reading => ?_⟩
    have kept := BrokerObject.version_kept (s := spec) ns reading
    exact kept.trans (Kind.version?_of_read (k := .broker) (by decide) reading)
  | deployment o =>
    refine ⟨Operator.upsert_sound.named, fun reading => ?_⟩
    exact (Kind.versionOf_bound _ Operator.further_deployment Operator.labels_unset).trans
      (Kind.version?_of_read (k := .deployment) (by decide) reading)
  | record ns desired =>
    refine ⟨(Kind.name?_object Globalnet.Record.further_data).trans ?_, fun reading => ?_⟩
    · simp [Object.named, Fields.find?, Json.str?, upsert, Globalnet.Record.upsert]
    · exact (Kind.versionOf_bound _ Globalnet.Record.further_data (by simp [Object.named])).trans
        (Kind.version?_of_read (k := .configMap) (by decide) reading)

variable {o : Contender} {s : Server} {c : Contest} {left : Program Calls (Except Error Outcome)}
  {v : Json}

/-- What another client wrote after an operation looked at its object is what is stored, and the
next attempt to write the object is refused without effect and ends the operation with a conflict. -/
theorem theirs_of_contested (stamped : Stamped o.path s)
    (among : Among Contested (Moves o.path) o.work.run ⟨s, none⟩ left c)
    (theirs : c.theirs = some v) :
    c.server.objects.find? o.path = some v ∧
      ∀ r next, left = .ask (I := Calls) (.send r) next → r.method ≠ .get →
        ∃ reason message, c.server.serve r = (statusFailure 409 reason message, c.server) ∧
          next (statusFailure 409 reason message) = .done (.error (.conflict o.label message)) := by
  have heeds := Upsert.heeds_work (c := ⟨s, none⟩) o.upsert_bound stamped
  rw [← o.work_eq] at heeds
  have stands : Stands o.path c := by
    refine heeds.keeps among (fun _ _ => stands_moves) (fun _ _ _ _ _ => stands_contested) ?_
    exact fun w same => by cases same
  refine ⟨stands v theirs, ?_⟩
  rintro r next rfl writes
  exact ((heeds.of_among among) c .refl).1 writes v theirs

def asking (globalnet : Bool) : BrokerSpec :=
  { Options.default.broker with globalnetEnabled := globalnet, clusterSize := 65536 }

def contender : Contender := .broker brokerNamespace (asking true)

def disputed : Json := BrokerObject.desired none brokerNamespace (asking false)

def standing : Server := (Server.write ⟨[], [], 0, []⟩ contender.path disputed).2

def looked : Program Calls (Except Error Outcome) × Server :=
  Program.advance Server.handler 1 contender.work.run standing

def request? : Program Calls (Except Error Outcome) → Option Request
  | .ask (Call.send r) _ => some r
  | _ => none

/-- When the broker is written once more, the replacement is refused. -/
theorem conflict_of_disputed : ∃ r next reason message,
    looked.1 = .ask (I := Calls) (.send r) next ∧ r.method = .put ∧
    (looked.2.write contender.path disputed).2.objects.find? contender.path =
      some (withVersion (looked.2.version + 1) disputed) ∧
    next (statusFailure 409 reason message) =
      .done (.error (.conflict "Broker/submariner-broker" message)) := by
  have writes : (request? looked.1).map Request.method = some .put := by decide +kernel
  obtain ⟨r, sent, isPut⟩ := Option.map_eq_some_iff.mp writes
  obtain ⟨next, about⟩ : ∃ next, looked.1 = .ask (I := Calls) (.send r) next := by
    unfold request? at sent
    split at sent
    · next r' next shape =>
      obtain rfl := Option.some.inj sent
      exact ⟨next, shape⟩
    · cases sent
  have metadata : Object.HasMetadata disputed := Kind.hasMetadata_object BrokerObject.further_spec
  have stamped : Stamped contender.path standing :=
    Stamped.renewed (s := ⟨[], [], 0, []⟩) (fun v found => by simp [Store.find?] at found)
      (Globalnet.Record.renewed_write metadata)
  have leads := Program.leads_advance id (fun s : Server => s.faults = [])
    (fun _ _ _ _ => exchange_of_handler) 1 (p := contender.work.run) (t := standing) rfl
  have among := (among_of_leads (p := contender.path) leads).trans
    (.moved (moves_write metadata) .here)
  obtain ⟨found, refused⟩ := theirs_of_contested stamped among rfl
  obtain ⟨reason, message, -, ended⟩ := refused r next about (by rw [isPut]; decide)
  exact ⟨r, next, reason, message, about, isPut, found, ended⟩

end Contender
end Deploy
end MultiCluster
