import MultiCluster.Proofs.Applied
import MultiCluster.Proofs.Errands
import MultiCluster.Proofs.Unsteady

/-! Work over an unsteady link, against the same work undisturbed. Applying an object twice is no
different from once; a creation or replacement may be refused the second time, though the object
is there. -/
namespace MultiCluster.Cluster

open Server (statusFailure withVersion)

variable {α β : Type} {fates : Nat → Fate} {l l' : Link} {s t : Server} {c : Collection} {k : Kind}
  {name resource : String} {v : Json} {r : Request} {p : Path} {n : Nat}

/-! ### Work that is disturbed -/

def BothOk (result result' : Except Error α) : Prop := result.isOk = true ∧ result'.isOk = true

def Alike (result result' : Except Error α) : Prop :=
  (∃ resource message, result' = .error (.conflict resource message)) ∨ result'.isOk = result.isOk

@[simp] theorem isOk_map {result : Except Error α} {f : α → β} :
    (result.map f).isOk = result.isOk := by
  cases result <;> rfl

theorem BothOk.map {result result' : Except Error α} {f g : α → β} (both : BothOk result result') :
    BothOk (result.map f) (result'.map g) := by
  simpa [BothOk] using both

theorem Alike.map {result result' : Except Error α} {f g : α → β} (alike : Alike result result') :
    Alike (result.map f) (result'.map g) := by
  rcases alike with ⟨resource, message, rfl⟩ | same
  · exact .inl ⟨resource, message, rfl⟩
  · exact .inr (by simpa using same)

def Told (like : Except Error α → Except Error α → Prop) (log : List Mark)
    (result result' : Except Error α) : Prop :=
  result' = result ∨ LostWrite log ∧ like result result'

/-- Over a link the work comes to what it comes to undisturbed, or it is given up. -/
def Absorbs (fates : Nat → Fate) (agree : Server → Server → Prop)
    (like : Except Error α → Except Error α → Prop) (s : Server) (w : Work α) : Prop :=
  ∃ result t, runOn s w = (some result, t) ∧ t.faults = [] ∧ ∀ l, l.server = s →
    Brings fates l w fun result' l' =>
      (agree t l'.server ∧ Told like l'.log result result') ∨ GivenUp result' l'

variable {agree : Server → Server → Prop} {like : Except Error β → Except Error β → Prop}

theorem absorbs_map {w : Work α} {f : α → β} {like' : Except Error α → Except Error α → Prop}
    (absorbs : Absorbs fates agree like' s w)
    (kept : ∀ r r', like' r r' → like (r.map f) (r'.map f)) :
    Absorbs fates agree like s (f <$> w) := by
  obtain ⟨result, t, ran, quiet, brings⟩ := absorbs
  refine ⟨result.map f, t, by rw [runOn_map, ran]; rfl, quiet, fun l same => brings_map ?_⟩
  refine (brings l same).imp ?_
  rintro result' l' (⟨agrees, rfl | ⟨lost, alike⟩⟩ | ⟨exhausted, e, rfl, transient⟩)
  · exact .inl ⟨agrees, .inl rfl⟩
  · exact .inl ⟨agrees, .inr ⟨lost, kept _ _ alike⟩⟩
  · exact .inr ⟨exhausted, e, rfl, transient⟩

/-- Work in a row, the first of which is absorbed without a trace on the server. -/
theorem absorbs_then {γ : Type} {x : Work α} {y : Work γ} {f : α → γ → β}
    {like' : Except Error γ → Except Error γ → Prop} (refl : ∀ t, agree t t)
    (both : ∀ b b', like (.ok b) (.ok b'))
    (kept : ∀ a a' r r', like' r r' → like (r.map (f a)) (r'.map (f a')))
    (first : Absorbs fates Eq BothOk s x)
    (second : ∀ t, t.faults = [] → Absorbs fates agree like' t y) :
    Absorbs fates agree like s (x >>= fun a => f a <$> y) := by
  obtain ⟨result, t, ran, quiet, brings⟩ := first
  cases result with
  | error e =>
    refine ⟨.error e, t, runOn_bind_of_error ran, quiet, fun l same => brings_bind ?_⟩
    refine (brings l same).imp ?_
    rintro result' l₁ (⟨rfl, rfl | ⟨-, ⟨⟩, -⟩⟩ | ⟨exhausted, e', rfl, transient⟩)
    · exact .inl ⟨refl _, .inl rfl⟩
    · exact .inr ⟨exhausted, e', rfl, transient⟩
  | ok a =>
    obtain ⟨result₂, t₂, ran₂, quiet₂, brings₂⟩ := second t quiet
    refine ⟨result₂.map (f a), t₂, ?_, quiet₂, fun l same => brings_bind ?_⟩
    · rw [runOn_bind_of_ok ran, runOn_map, ran₂]
      rfl
    · refine (brings l same).imp ?_
      rintro result' l₁ (⟨rfl, told⟩ | ⟨exhausted, e', rfl, transient⟩)
      · obtain ⟨a', rfl, before⟩ : ∃ a', result' = .ok a' ∧ (a' = a ∨ LostWrite l₁.log) := by
          rcases told with rfl | ⟨lost, -, isOk⟩
          · exact ⟨a, rfl, .inl rfl⟩
          · cases result' with
            | ok a' => exact ⟨a', rfl, .inr lost⟩
            | error e => cases isOk
        refine brings_map ((brings₂ l₁ rfl).longer.imp ?_)
        rintro result₂' l₂ ⟨longer, ⟨agrees, rfl | ⟨lost, alike⟩⟩ | ⟨exhausted, e', rfl, transient⟩⟩
        · refine .inl ⟨agrees, ?_⟩
          rcases before with rfl | lost
          · exact .inl rfl
          · cases result₂' with
            | error e => exact .inl rfl
            | ok b => exact .inr ⟨lost.of_prefix longer, both _ _⟩
        · exact .inl ⟨agrees, .inr ⟨lost, kept _ _ _ _ alike⟩⟩
        · exact .inr ⟨exhausted, e', rfl, transient⟩
      · exact .inr ⟨exhausted, e', rfl, transient⟩

theorem absorbs_of_done {w : Work β} {result : Except Error β} (refl : ∀ t, agree t t)
    (quiet : s.faults = []) (done : w.run = .done result) : Absorbs fates agree like s w := by
  refine ⟨result, s, by rw [runOn, done]; rfl, quiet, fun l same => ?_⟩
  exact ⟨result, l, by rw [done]; rfl, .inl ⟨same ▸ refl _, .inl rfl⟩⟩

/-! ### Applying -/

/-- What an attempt to apply an object leaves behind: what it does undisturbed is done, or it has
failed and nothing or all of that is done. -/
def Attempted (c : Collection) (v : Json) (l : Link) (result : Except Error Outcome) (l' : Link) :
    Prop :=
  runOn l.server (c.apply v) = (some result, l'.server) ∨
    (Transient result ∧ FailedAttempt l.log l'.log ∧ (l'.server = l.server ∨
      (∃ undisturbed, runOn l.server (c.apply v) = (some undisturbed, l'.server)) ∧
        (l'.server.version ≠ l.server.version → LostWrite l'.log)))

theorem Attempted.after_answer {l₁ : Link} {result : Except Error Outcome}
    (kept : l₁.server = l.server) (log : l₁.log = l.log ++ [.answered])
    (attempted : Attempted c v l₁ result l') : Attempted c v l result l' := by
  rw [Attempted, kept, log] at attempted
  exact attempted.imp_right fun ⟨transient, failed, done⟩ => ⟨transient, failed.after_answer, done⟩

namespace Applicable

variable (ok : Applicable c name v)
include ok

/-- The patch, once what was there has been read. -/
theorem brings_patch {before : Option Json} (passing : Passing fates) (quiet : l.server.faults = [])
    (read : c.kind.readStored (l.server.objects.find? (c.member name)) = .ok before) :
    Brings fates l ((fun after =>
        Outcome.ofVersions (before.map Object.version?) (Object.version? after)) <$>
      c.serverApply (c.label name) name v) (Attempted c v l) := by
  have undisturbed := ok.runOn_apply quiet read
  refine brings_map (brings_exchange passing honest_read (.inl undisturbed) ?_)
  rintro _ ⟨e, rfl, transient⟩
  exact ⟨.inr ⟨⟨e, rfl, transient⟩, failedAttempt_refused, .inl rfl⟩,
    .inr ⟨⟨e, rfl, transient⟩, failedAttempt_lost, .inr ⟨⟨_, undisturbed⟩, lostWrite_of_moved⟩⟩⟩

theorem brings_attempt (passing : Passing fates) (quiet : l.server.faults = []) :
    Brings fates l (c.apply v) (Attempted c v l) := by
  rw [ok.apply_eq]
  refine brings_bind ((brings_look passing).imp ?_)
  rintro result l₁ ⟨kept, ⟨rfl, log⟩ | ⟨⟨e, rfl, transient⟩, failed⟩⟩
  · cases read : c.kind.readStored (l.server.objects.find? (c.member name)) with
    | error e =>
      refine .inl ?_
      rw [kept]
      exact ok.runOn_apply_unread quiet read
    | ok before =>
      rw [← kept] at quiet read
      have patched := ok.brings_patch passing quiet read
      rw [map_eq_pure_bind] at patched
      exact patched.imp fun _ _ => Attempted.after_answer kept log
  · exact .inr ⟨⟨e, rfl, transient⟩, failed, .inl kept⟩

/-- Undisturbed, it comes to a result that is not repeated, and writes at most once. -/
theorem runOn_apply_total (quiet : s.faults = []) : ∃ result t,
    runOn s (c.apply v) = (some result, t) ∧ Final result ∧ (t.version = s.version → t = s) := by
  cases read : c.kind.readStored (s.objects.find? (c.member name)) with
  | error e =>
    refine ⟨_, s, ok.runOn_apply_unread quiet read, ?_, fun _ => rfl⟩
    rintro _ ⟨⟩
    exact readStored_final read
  | ok before =>
    by_cases kept : s.objects.find? (c.member name) =
        some (applied v (s.objects.find? (c.member name)))
    · exact ⟨_, _, ok.runOn_apply_kept quiet read kept, fun _ => map_readBack_final, fun _ => rfl⟩
    · exact ⟨_, _, ok.runOn_apply_new quiet read kept, fun _ => map_readBack_final,
        by simp [Server.write]⟩

/-- Applied again, an object leaves the server as it is, and the result is the same or a success in
place of a success. -/
theorem runOn_apply_again {result : Except Error Outcome} (quiet : s.faults = [])
    (ran : runOn s (c.apply v) = (some result, t)) : ∃ result',
      runOn t (c.apply v) = (some result', t) ∧
        (result' = result ∨ BothOk result result') := by
  cases read : c.kind.readStored (s.objects.find? (c.member name)) with
  | error e =>
    obtain ⟨-, rfl⟩ := Prod.mk.inj (ran.symm.trans (ok.runOn_apply_unread quiet read))
    exact ⟨result, ran, .inl rfl⟩
  | ok before =>
    by_cases kept : s.objects.find? (c.member name) =
        some (applied v (s.objects.find? (c.member name)))
    · obtain ⟨-, rfl⟩ := Prod.mk.inj (ran.symm.trans (ok.runOn_apply_kept quiet read kept))
      exact ⟨result, ran, .inl rfl⟩
    · obtain ⟨told, rfl⟩ := Prod.mk.inj (ran.symm.trans (ok.runOn_apply_new quiet read kept))
      generalize s.objects.find? (c.member name) = stored at told
      -- What is found now is what was written, whether it reads or not.
      have found : (s.write (c.member name) (applied v stored)).2.objects.find? (c.member name) =
          some (withVersion (s.version + 1) (applied v stored)) := Server.find?_write_self
      have quiet' : (s.write (c.member name) (applied v stored)).2.faults = [] := quiet
      cases back : c.kind.readBack (withVersion (s.version + 1) (applied v stored)) with
      | error e =>
        have unread : c.kind.readStored ((s.write (c.member name)
            (applied v stored)).2.objects.find? (c.member name)) = .error e := by
          rw [found, Kind.readStored, back]
          rfl
        refine ⟨.error e, ok.runOn_apply_unread quiet' unread, .inl ?_⟩
        simpa [back, Except.map] using told.symm
      | ok w =>
        have read : c.kind.readStored ((s.write (c.member name)
            (applied v stored)).2.objects.find? (c.member name)) = .ok (some w) := by
          rw [found, Kind.readStored, back]
          rfl
        have again := ok.runOn_apply_kept quiet' read (by rw [found, ok.applied_withVersion])
        rw [found, ok.applied_withVersion, back] at again
        rw [back] at told
        exact ⟨_, again, .inr ⟨Option.some.inj told ▸ rfl, rfl⟩⟩

theorem absorbs_apply (passing : Passing fates) (quiet : s.faults = []) :
    Absorbs fates Eq BothOk s (persistently (c.apply v)) := by
  obtain ⟨result, t, ran, final, still⟩ := ok.runOn_apply_total quiet
  obtain ⟨result', ranAgain, told⟩ := ok.runOn_apply_again quiet ran
  have quiet' : t.faults = [] := by
    have kept := faults_run (p := (c.apply v).run) quiet
    rwa [show (c.apply v).run.run Server.handler s = _ from ran] at kept
  refine ⟨result, t, runOn_persistently ran final, quiet', fun l same => ?_⟩
  -- Either nothing has happened yet, or the answer to the patch that went in was lost.
  refine brings_persistently
    (K := fun l => l.server = s ∨ l.server = t ∧ LostWrite l.log) ?_ ?_ (.inl same)
  · rintro l₁ wait (before | ⟨after, lost⟩)
    · exact .inl before
    · exact .inr ⟨after, lost.append⟩
  · rintro l₁ (rfl | ⟨rfl, lost⟩)
    · refine (ok.brings_attempt passing quiet).imp ?_
      rintro result₁ l₂ (done | ⟨transient, failed, nothing | ⟨⟨_, all⟩, wrote⟩⟩)
      · obtain ⟨⟨⟩, rfl⟩ := Prod.mk.inj (ran.symm.trans done)
        exact .inl ⟨final, rfl, .inl rfl⟩
      · exact .inr ⟨transient, failed, .inl nothing⟩
      · obtain ⟨-, rfl⟩ := Prod.mk.inj (ran.symm.trans all)
        refine .inr ⟨transient, failed, ?_⟩
        by_cases moved : l₂.server.version = l₁.server.version
        · exact .inl (still moved)
        · exact .inr ⟨rfl, wrote moved⟩
    · refine (ok.brings_attempt passing quiet').longer.imp ?_
      rintro result₁ l₂ ⟨longer, done | ⟨transient, failed, nothing | ⟨⟨_, all⟩, -⟩⟩⟩
      · obtain ⟨⟨⟩, same⟩ := Prod.mk.inj (ranAgain.symm.trans done)
        refine .inl ⟨?_, same, ?_⟩
        · rcases told with rfl | ⟨-, isOk⟩
          · exact final
          · rintro e rfl
            cases isOk
        · exact told.imp_right fun successes => ⟨lost.of_prefix longer, successes⟩
      · exact .inr ⟨transient, failed, .inr ⟨nothing, lost.of_prefix longer⟩⟩
      · obtain ⟨-, same⟩ := Prod.mk.inj (ranAgain.symm.trans all)
        exact .inr ⟨transient, failed, .inr ⟨same.symm, lost.of_prefix longer⟩⟩

end Applicable

/-- Errands in a row, each of them absorbed without a trace on the server. -/
theorem absorbs_performAll {es : List Errand}
    (each : ∀ e ∈ es, ∀ s : Server, s.faults = [] → Absorbs fates Eq BothOk s e.work)
    (quiet : s.faults = []) : Absorbs fates Eq BothOk s (Errand.performAll es) := by
  induction es generalizing s with
  | nil => exact absorbs_of_done (fun _ => rfl) quiet rfl
  | cons e rest ih =>
    rw [List.forall_mem_cons] at each
    have inTurn : Errand.performAll (e :: rest) =
        e.work >>= fun outcome => List.cons outcome <$> Errand.performAll rest := by
      simp [Errand.performAll]
    rw [inTurn]
    exact absorbs_then (fun _ => rfl) (fun _ _ => ⟨rfl, rfl⟩) (fun _ _ _ _ => BothOk.map)
      (each.1 s quiet) fun t quiet' => ih each.2 quiet'

/-! ### Creating and replacing -/

structure Rewritten (p : Path) (v : Json) (s t : Server) : Prop where
  here : ∃ n, t.objects.find? p = some (withVersion n v)
  elsewhere : ∀ q, q ≠ p → t.objects.find? q = s.objects.find? q

theorem rewritten_write : Rewritten p v s (s.write p v).2 :=
  ⟨⟨_, Server.find?_write_self⟩, fun _ => Server.find?_write_of_ne⟩

theorem Rewritten.write (rewritten : Rewritten p v s t) : Rewritten p v s (t.write p v).2 :=
  ⟨⟨_, Server.find?_write_self⟩, fun q other =>
    (Server.find?_write_of_ne other).trans (rewritten.elsewhere q other)⟩

theorem isOk_readBack_iff : (k.readBack v).isOk = true ↔ k.Reads v := by
  constructor
  · intro isOk
    cases back : k.readBack v with
    | ok w => exact reads_of_readBack back
    | error e => simp [back, Except.isOk, Except.toBool] at isOk
  · rintro ⟨w, reading⟩
    rw [readBack_of_read reading]
    rfl

/-- Whether a written object reads does not depend on its version. -/
theorem isOk_readBack_version {m : Nat} (notMachineSet : k ≠ .machineSet)
    (hasMetadata : Object.HasMetadata v) :
    (k.readBack (withVersion m v)).isOk = (k.readBack (withVersion n v)).isOk := by
  rw [Bool.eq_iff_iff, isOk_readBack_iff, isOk_readBack_iff]
  exact ⟨Kind.reads_withVersion notMachineSet hasMetadata,
    Kind.reads_withVersion notMachineSet hasMetadata⟩

theorem blame_write (wrote : t.serve r = t.write p v) :
    blame resource (Reply.read k.read (t.serve r).1) =
      k.readBack (withVersion (t.version + 1) v) := by
  rw [wrote]
  exact blame_read_document

structure Rewrites (r : Request) (p : Path) (v : Json) (s : Server) : Prop where
  first : s.serve r = s.write p v
  again : ∀ t, Rewritten p v s t → t.serve r = t.write p v ∨
    ∃ reason message, t.serve r = (statusFailure 409 reason message, t)

theorem Rewrites.serve_again (rewrites : Rewrites r p v s) (notMachineSet : k ≠ .machineSet)
    (hasMetadata : Object.HasMetadata v) (after : Rewritten p v s t) :
    Rewritten p v s (t.serve r).2 ∧
      Final (blame resource (Reply.read k.read (t.serve r).1)) ∧
      Alike (k.readBack (withVersion n v)) (blame resource (Reply.read k.read (t.serve r).1)) := by
  rcases rewrites.again t after with writes | ⟨_, message, conflicts⟩
  · rw [blame_write writes, writes]
    exact ⟨after.write, fun _ => readBack_final,
      .inr (isOk_readBack_version notMachineSet hasMetadata)⟩
  · rw [conflicts, Reply.read_statusFailure]
    refine ⟨after, ?_, .inl ⟨resource, message, rfl⟩⟩
    rintro _ ⟨⟩
    rfl

/-- A write that is repeated until it is answered is carried out. After an answer was lost, the
server may refuse to carry it out again. -/
theorem brings_write (passing : Passing fates) (notMachineSet : k ≠ .machineSet)
    (hasMetadata : Object.HasMetadata v) (rewrites : Rewrites r p v s) (same : l.server = s) :
    Brings fates l (persistently (exchange resource r (Reply.read k.read))) fun result l' =>
      (Rewritten p v s l'.server ∧
        Told Alike l'.log (k.readBack (withVersion (s.version + 1) v)) result) ∨
      GivenUp result l' := by
  refine brings_persistently
    (K := fun l => l.server = s ∨ Rewritten p v s l.server ∧ LostWrite l.log) ?_ ?_ (.inl same)
  · rintro l₁ wait (before | ⟨after, lost⟩)
    · exact .inl before
    · exact .inr ⟨after, lost.append⟩
  · rintro l₁ (rfl | ⟨after, lost⟩)
    · refine brings_exchange passing honest_read ?_ fun result transient => ⟨?_, ?_⟩
      · rw [blame_write rewrites.first, Link.answered, rewrites.first]
        exact .inl ⟨fun _ => readBack_final, rewritten_write, .inl rfl⟩
      · exact .inr ⟨transient, failedAttempt_refused, .inl rfl⟩
      · refine .inr ⟨transient, failedAttempt_lost, .inr ⟨?_, lostWrite_of_moved ?_⟩⟩
        · rw [Link.lost, rewrites.first]
          exact rewritten_write
        · simp [rewrites.first, Server.write]
    · obtain ⟨moved, final, alike⟩ := rewrites.serve_again notMachineSet hasMetadata after
      refine brings_exchange passing honest_read ?_ fun result transient => ⟨?_, ?_⟩
      · exact .inl ⟨final, moved, .inr ⟨lost.append, alike⟩⟩
      · exact .inr ⟨transient, failedAttempt_refused, .inr ⟨after, lost.append⟩⟩
      · exact .inr ⟨transient, failedAttempt_lost, .inr ⟨moved, lost.append⟩⟩

end MultiCluster.Cluster
