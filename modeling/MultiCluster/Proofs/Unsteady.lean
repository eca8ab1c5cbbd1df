import MultiCluster.Proofs.Causes
import MultiCluster.Proofs.Operations

/-! A link to a server that fails now and then: a request does not get through, or it is carried
out and the answer is lost. A call that is repeated ends as on a link that never fails, unless all
of its attempts fail or an answer to a write is lost. -/
namespace MultiCluster.Cluster

open Server (statusFailure withVersion)

inductive Fate where
  | answered
  /-- It is not carried out. -/
  | refused (reply : Reply)
  /-- It is carried out, but another reply comes in place of the answer. -/
  | lost (reply : Reply)
  deriving DecidableEq, Repr

/-- What is noted of a request, or of a wait. -/
inductive Mark where
  | answered
  | refused
  /-- Whether carrying it out changed what is stored. -/
  | lost (wrote : Bool)
  | paused (wait : Duration)
  deriving DecidableEq, Repr

def Mark.isFailure : Mark → Bool
  | .answered => false
  | .refused => true
  | .lost _ => true
  | .paused _ => false

structure Link where
  server : Server
  /-- The number of requests so far. -/
  asked : Nat
  log : List Mark

namespace Link

def onto (s : Server) : Link := ⟨s, 0, []⟩

def answered (l : Link) (r : Request) : Link :=
  ⟨(l.server.serve r).2, l.asked + 1, l.log ++ [.answered]⟩

def refused (l : Link) : Link := { l with asked := l.asked + 1, log := l.log ++ [.refused] }

def lost (l : Link) (r : Request) : Link :=
  let after := (l.server.serve r).2
  ⟨after, l.asked + 1, l.log ++ [.lost (after.version != l.server.version)]⟩

def paused (l : Link) (wait : Duration) : Link := { l with log := l.log ++ [.paused wait] }

def handler (fates : Nat → Fate) : Program.Handler Calls Link
  | .send r, l =>
    match fates l.asked with
    | .answered => (some (l.server.serve r).1, l.answered r)
    | .refused reply => (some reply, l.refused)
    | .lost reply => (some reply, l.lost r)
  | .pause wait, l => (some (), l.paused wait)

end Link

def runOver {α : Type} (fates : Nat → Fate) (s : Server) (w : Work α) :
    Option (Except Error α) × Link :=
  w.run.run (Link.handler fates) (.onto s)

/-! ### Failures that may pass -/

def ApiError.IsAbsence : ApiError → Prop
  | .answer _ _ reason _ => reason = "NotFound"
  | _ => False

/-- A broken connection, or an answer from 500 on that does not say that there is no object. -/
def Reply.Passing (reply : Reply) : Prop :=
  ∃ e, reply.payload = .error e ∧ e.isTransient = true ∧ ¬ ApiError.IsAbsence e

def Passing (fates : Nat → Fate) : Prop :=
  ∀ n reply, fates n = .refused reply ∨ fates n = .lost reply → reply.Passing

/-! ### What the log tells -/

def FailedAttempt (before after : List Mark) : Prop :=
  ∃ n mark, mark.isFailure = true ∧ after = before ++ List.replicate n .answered ++ [mark]

/-- The log ends with the first `n` attempts of a call, all failed, and the waits after them. -/
def Tried : Nat → List Mark → Prop
  | 0, _ => True
  | n + 1, log => ∃ before after, Tried n before ∧ FailedAttempt before after ∧
      log = after ++ [.paused (Backoff.standard.delay (n + 1))]

def Exhausted (log : List Mark) : Prop := ∃ before, Tried 3 before ∧ FailedAttempt before log

def LostWrite (log : List Mark) : Prop := .lost true ∈ log

variable {α β : Type} {fates : Nat → Fate} {l l' : Link} {s t : Server} {c : Collection} {k : Kind}
  {name resource : String} {v : Json} {r : Request} {p : Path} {before after : List Mark}
  {result : Except Error α} {n : Nat}

theorem FailedAttempt.after_answer (failed : FailedAttempt (before ++ [.answered]) after) :
    FailedAttempt before after := by
  obtain ⟨n, mark, failure, same⟩ := failed
  refine ⟨n + 1, mark, failure, ?_⟩
  simpa [List.replicate_succ] using same

theorem failedAttempt_refused : FailedAttempt l.log l.refused.log :=
  ⟨0, .refused, rfl, by simp [Link.refused]⟩

theorem failedAttempt_lost : FailedAttempt l.log (l.lost r).log :=
  ⟨0, .lost _, rfl, by simp only [Link.lost, List.replicate_zero, List.append_nil]; rfl⟩

theorem LostWrite.append {more : List Mark} (lost : LostWrite before) :
    LostWrite (before ++ more) :=
  List.mem_append_left more lost

theorem LostWrite.of_prefix (lost : LostWrite before) (longer : before <+: after) :
    LostWrite after :=
  longer.subset lost

theorem lostWrite_of_moved (moved : (l.server.serve r).2.version ≠ l.server.version) :
    LostWrite (l.lost r).log := by
  simpa [LostWrite, Link.lost] using .inr moved

/-! ### Work over a link -/

def Brings (fates : Nat → Fate) (l : Link) (w : Work α) (post : Except Error α → Link → Prop) :
    Prop :=
  ∃ result l', w.run.run (Link.handler fates) l = (some result, l') ∧ post result l'

theorem Brings.imp {w : Work α} {post post' : Except Error α → Link → Prop}
    (brings : Brings fates l w post) (weaker : ∀ result l', post result l' → post' result l') :
    Brings fates l w post' := by
  obtain ⟨result, l', ran, done⟩ := brings
  exact ⟨result, l', ran, weaker _ _ done⟩

theorem Link.handler_answers (fates : Nat → Fate) (call : Call) (l : Link) :
    ∃ (a : Calls.Answer call) (l' : Link), handler fates call l = (some a, l') ∧
      l.log <+: l'.log := by
  cases call with
  | pause wait => exact ⟨(), _, rfl, List.prefix_append _ _⟩
  | send r =>
    cases fate : fates l.asked <;> simp only [handler, fate] <;>
      exact ⟨_, _, rfl, List.prefix_append _ _⟩

/-- The log is only written further. -/
theorem log_run {w : Program Calls α} : l.log <+: (w.run (Link.handler fates) l).2.log := by
  induction w generalizing l with
  | done a => exact List.prefix_rfl
  | never => exact List.prefix_rfl
  | ask call next ih =>
    obtain ⟨a, l', handled, longer⟩ := Link.handler_answers fates call l
    rw [Program.run_ask handled]
    exact longer.trans (ih a)

theorem Brings.longer {w : Work α} {post : Except Error α → Link → Prop}
    (brings : Brings fates l w post) :
    Brings fates l w fun result l' => l.log <+: l'.log ∧ post result l' := by
  obtain ⟨result, l', ran, done⟩ := brings
  have longer : l.log <+: (w.run.run (Link.handler fates) l).2.log := log_run
  rw [ran] at longer
  exact ⟨result, l', ran, longer, done⟩

theorem brings_pure {a : α} {post : Except Error α → Link → Prop} (done : post (.ok a) l) :
    Brings fates l (pure a) post :=
  ⟨_, _, rfl, done⟩

theorem brings_bind {x : Work α} {f : α → Work β} {post : Except Error β → Link → Prop}
    (first : Brings fates l x fun result l' => match result with
      | .ok a => Brings fates l' (f a) post
      | .error e => post (.error e) l') : Brings fates l (x >>= f) post := by
  obtain ⟨result, l₁, ran, next⟩ := first
  cases result with
  | error e => exact ⟨.error e, l₁, by rw [Program.run_action_bind, ran], next⟩
  | ok a =>
    obtain ⟨result', l₂, ranNext, done⟩ := next
    exact ⟨result', l₂, by rw [Program.run_action_bind, ran]; exact ranNext, done⟩

theorem brings_map {w : Work α} {f : α → β} {post : Except Error β → Link → Prop}
    (brings : Brings fates l w fun result l' => post (result.map f) l') :
    Brings fates l (f <$> w) post := by
  rw [map_eq_pure_bind]
  refine brings_bind (brings.imp fun result l' done => ?_)
  cases result with
  | ok a => exact brings_pure done
  | error e => exact done

def Honest (take : Reply → Except ApiError α) : Prop :=
  ∀ reply e, reply.payload = .error e → ¬ ApiError.IsAbsence e → take reply = .error e

theorem honest_read {reader : Json → Except String α} : Honest (Reply.read reader) := by
  intro reply e failed _
  rw [Reply.read, failed]

theorem honest_optional : Honest (takeOptional k) := by
  intro reply e failed notAbsence
  rw [takeOptional, honest_read reply e failed notAbsence]
  cases e with
  | answer status message reason code => simpa [ApiError.IsAbsence] using notAbsence
  | _ => rfl

def Transient (result : Except Error α) : Prop := ∃ e, result = .error e ∧ e.isTransient = true

def Final (result : Except Error α) : Prop := ∀ e, result = .error e → e.isTransient = false

theorem transient_of_passing {take : Reply → Except ApiError α} {reply : Reply}
    (honest : Honest take) (passing : reply.Passing) : Transient (blame resource (take reply)) := by
  obtain ⟨e, failed, transient, notAbsence⟩ := passing
  rw [honest reply e failed notAbsence]
  exact ⟨_, rfl, (Error.isTransient_ofApi resource e).trans transient⟩

theorem brings_exchange {take : Reply → Except ApiError α} {post : Except Error α → Link → Prop}
    (passing : Passing fates) (honest : Honest take)
    (answered : post (blame resource (take (l.server.serve r).1)) (l.answered r))
    (failed : ∀ result, Transient result → post result l.refused ∧ post result (l.lost r)) :
    Brings fates l (exchange resource r take) post := by
  unfold Brings
  rw [exchange_eq]
  have transient {reply : Reply} (passes : reply.Passing) :
      Transient (blame resource (take reply)) := transient_of_passing honest passes
  have came {a : Reply} {l' : Link} (handled : Link.handler fates (.send r) l = (some a, l')) :
      (Program.ask (I := Calls) (.send r) fun reply => .done (blame resource (take reply))).run
        (Link.handler fates) l = (some (blame resource (take a)), l') := Program.run_ask handled
  cases fate : fates l.asked with
  | answered => exact ⟨_, _, came (by simp only [Link.handler, fate]; rfl), answered⟩
  | refused reply =>
    have again := transient (passing _ reply (.inl fate))
    exact ⟨_, _, came (by simp only [Link.handler, fate]; rfl), (failed _ again).1⟩
  | lost reply =>
    have again := transient (passing _ reply (.inr fate))
    exact ⟨_, _, came (by simp only [Link.handler, fate]; rfl), (failed _ again).2⟩

def GivenUp (result : Except Error α) (l : Link) : Prop := Exhausted l.log ∧ Transient result

/-- Repeated work, from what one attempt does: it comes to a result, or leaves behind a link on
which the next one does as well. -/
theorem brings_persistently {w : Work α} {K : Link → Prop} {post : Except Error α → Link → Prop}
    (waiting : ∀ l wait, K l → K (l.paused wait))
    (attempt : ∀ l, K l → Brings fates l w fun result l' =>
      (Final result ∧ post result l') ∨ (Transient result ∧ FailedAttempt l.log l'.log ∧ K l'))
    (start : K l) :
    Brings fates l (persistently w) fun result l' => post result l' ∨ GivenUp result l' := by
  have repeated (left n : Nat) : n + left = 3 → ∀ l, K l → Tried n l.log → ∃ result l',
      (retryFrom .standard Error.isTransient pause w.run left (n + 1)).run (Link.handler fates) l =
        (some result, l') ∧ (post result l' ∨ GivenUp result l') := by
    induction left generalizing n with
    | zero =>
      rintro rfl l ready tried
      obtain ⟨result, l', ran, ⟨-, done⟩ | ⟨transient, failed, -⟩⟩ := attempt l ready
      · exact ⟨result, l', ran, .inl done⟩
      · exact ⟨result, l', ran, .inr ⟨⟨l.log, tried, failed⟩, transient⟩⟩
    | succ left ih =>
      intro count l ready tried
      obtain ⟨result, l', ran, ⟨final, done⟩ | ⟨⟨e, rfl, transient⟩, failed, again⟩⟩ :=
        attempt l ready
      · refine ⟨result, l', ?_, .inl done⟩
        rw [retryFrom, Program.run_bind, ran]
        cases result with
        | ok a => rfl
        | error e => simp [final e rfl, Program.run]
      · have tried' : Tried (n + 1) (l'.paused (Backoff.standard.delay (n + 1))).log :=
          ⟨l.log, l'.log, tried, failed, rfl⟩
        obtain ⟨result, l'', ran', done⟩ := ih (n + 1) (by omega) _ (waiting _ _ again) tried'
        refine ⟨result, l'', ?_, done⟩
        rw [retryFrom, Program.run_bind, ran]
        simp only [transient, if_true]
        exact ran'
  exact repeated 3 0 rfl l start trivial

/-! ### Looking -/

theorem server_look (c : Collection) (name : String) : (s.serve (c.getRequest name)).2 = s := by
  rw [serve_getRequest]

/-- One look: it is answered, or fails and has changed nothing. -/
theorem brings_look (passing : Passing fates) :
    Brings fates l (c.find? resource name) fun result l' => l'.server = l.server ∧
      ((result = c.kind.readStored (l.server.objects.find? (c.member name)) ∧
          l'.log = l.log ++ [.answered]) ∨
        (Transient result ∧ FailedAttempt l.log l'.log)) := by
  refine brings_exchange passing honest_optional ?_ ?_
  · exact ⟨server_look c name, .inl ⟨blame_look, rfl⟩⟩
  · exact fun result transient => ⟨⟨rfl, .inr ⟨transient, failedAttempt_refused⟩⟩,
      server_look c name, .inr ⟨transient, failedAttempt_lost⟩⟩

theorem brings_find? (passing : Passing fates) :
    Brings fates l (persistently (c.find? resource name)) fun result l' =>
      (result = c.kind.readStored (l.server.objects.find? (c.member name)) ∧
        l'.server = l.server) ∨ GivenUp result l' := by
  refine brings_persistently (K := fun l' => l'.server = l.server) (fun _ _ same => same) ?_ rfl
  intro l₁ same
  refine (brings_look passing).imp ?_
  rintro result l₂ ⟨kept, ⟨rfl, -⟩ | ⟨transient, failed⟩⟩
  · rw [same] at kept ⊢
    exact .inl ⟨fun _ => readStored_final, rfl, kept⟩
  · exact .inr ⟨transient, failed, kept.trans same⟩

end MultiCluster.Cluster
