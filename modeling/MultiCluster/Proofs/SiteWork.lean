import MultiCluster.Proofs.Relabelling

/-! Work on a site. Its calls go to a cluster that may fail, and its reports to a reader who changes
nothing; a run of it may break off anywhere. What every request keeps true is true wherever a run
breaks off, and a rule for each way of putting work together says what holds at its end. -/
namespace MultiCluster.Gateway

open Cluster
open Server (Exchange)

variable {α β : Type} {x : String} {E F : Surroundings Calls Server} {J : Server → Prop}
  {s s' s₁ : Server} {post : Except Error α → Server → Prop}

def onSite (E : Surroundings Calls Server) : Surroundings Site Server
  | .inl call, s, a, s' => E call s a s'
  | .inr _, s, _, s' => s' = s

def BreaksOff (E : Surroundings Calls Server) (work : SiteWork α) (s s' : Server) : Prop :=
  ∃ rest, Program.Leads (onSite E) work.run s rest s'

def Succeeds (E : Surroundings Calls Server) (work : SiteWork Unit) (s s' : Server) : Prop :=
  Program.Leads (onSite E) work.run s (.done (.ok ())) s'

/-- Work that keeps `J` at every request and ends with `post`. -/
def Keeps (E : Surroundings Calls Server) (J : Server → Prop) (work : SiteWork α)
    (post : Except Error α → Server → Prop) (s : Server) : Prop :=
  work.run.Meets (onSite E) Eq (fun _ s' => J s') (fun result s' => J s' ∧ post result s') s

theorem Keeps.of_breaksOff {work : SiteWork α} (keeps : Keeps E J work post s)
    (broken : BreaksOff E work s s') (start : J s) : J s' :=
  let ⟨_, leads⟩ := broken
  Program.Meets.keeps keeps leads start

theorem Keeps.of_leads {work : SiteWork α} {result : Except Error α}
    (keeps : Keeps E J work post s)
    (leads : Program.Leads (onSite E) work.run s (.done result) s') : J s' ∧ post result s' :=
  (Program.Meets.of_leads keeps leads).1

theorem Keeps.imp {work : SiteWork α} {post' : Except Error α → Server → Prop}
    (keeps : Keeps E J work post s) (after : ∀ result s', J s' → post result s' → post' result s') :
    Keeps E J work post' s :=
  Program.Meets.imp keeps fun result s' ended => ⟨ended.1, after result s' ended.1 ended.2⟩

theorem keeps_result {result : Except Error α} (start : J s) (ended : post result s) :
    Keeps E J (.mk (.done result)) post s :=
  ⟨start, ended⟩

theorem keeps_tell {e : Event} {post : Except Error Unit → Server → Prop} (start : J s)
    (ended : post (.ok ()) s) : Keeps E J (tell e) post s := by
  rintro s₁ rfl - s₂ rfl
  exact ⟨start, start, ended⟩

theorem Keeps.bind {x : SiteWork α} {f : α → SiteWork β} {post : Except Error β → Server → Prop}
    (first : Keeps E J x (fun result s' => match result with
      | .ok a => Keeps E J (f a) post s'
      | .error e => post (.error e) s') s) : Keeps E J (x >>= f) post s := by
  unfold Keeps
  rw [ExceptT.run_bind]
  refine Program.Meets.bind (Program.Meets.imp first fun result s' ended => ?_)
  cases result with
  | ok a => exact ended.2
  | error e => exact ended

theorem Keeps.reporting {say : Error → String} {work : SiteWork α}
    (keeps : Keeps E J work post s) : Keeps E J (reporting say work) post s := by
  refine Program.Meets.bind (Program.Meets.imp keeps fun result s' ended => ?_)
  cases result with
  | ok a => exact ended
  | error e =>
    rintro s₁ rfl - s₂ rfl
    exact ⟨ended.1, ended⟩

theorem meets_inLeft {p : Program Calls α} {guarantee : Server → Server → Prop}
    {post : α → Server → Prop} (meets : p.Meets E Eq guarantee post s) :
    (p.inLeft (J := Reports)).Meets (onSite E) Eq guarantee post s := by
  induction p generalizing s with
  | done a => exact meets
  | never => trivial
  | ask r next ih =>
    rintro s₁ rfl a s₂ came
    obtain ⟨kept, later⟩ := meets s rfl a s₂ came
    exact ⟨kept, ih a later⟩

theorem keeps_onCluster {w : Work α} (meets : w.run.Meets E Eq (fun _ s' => J s')
    (fun result s' => J s' ∧ post result s') s) : Keeps E J (onCluster w) post s :=
  meets_inLeft meets

/-- Work on items in order keeps what the work on each keeps. `K` says what is reached when some of
them are done. -/
theorem keeps_inOrder {work : α → SiteWork Unit} {items : List α} {K : List α → Server → Prop}
    {post : Except Error Unit → Server → Prop}
    (step : ∀ done a rest s, done ++ a :: rest = items → J s → K done s →
      Keeps E J (work a) (fun result s' => match result with
        | .ok _ => K (done ++ [a]) s'
        | .error e => post (.error e) s') s)
    (finish : ∀ s, J s → K items s → post (.ok ()) s) (start : J s) (none : K [] s) :
    Keeps E J (inOrder work items) post s := by
  have remaining (done rest : List α) (parts : done ++ rest = items) :
      ∀ s, J s → K done s → Keeps E J (inOrder work rest) post s := by
    induction rest generalizing done with
    | nil =>
      intro s kept reached
      obtain rfl : done = items := by simpa using parts
      exact keeps_result kept (finish s kept reached)
    | cons a rest ih =>
      intro s kept reached
      refine Keeps.bind ((step done a rest s parts kept reached).imp fun result s' kept ended => ?_)
      cases result with
      | ok _ => exact ih (done ++ [a]) (by simpa using parts) s' kept ended
      | error e => exact ended
  exact remaining [] items rfl s start none

/-- Surroundings that do less keep more. -/
theorem meets_narrow {p : Program Calls α} {guarantee : Server → Server → Prop}
    {post : α → Server → Prop} (meets : p.Meets F Eq guarantee post s)
    (narrow : ∀ call s a s', E call s a s' → F call s a s') : p.Meets E Eq guarantee post s := by
  induction p generalizing s with
  | done a => exact meets
  | never => trivial
  | ask call next ih =>
    rintro s₁ rfl a s₂ came
    obtain ⟨kept, later⟩ := meets s rfl a s₂ (narrow call s a s₂ came)
    exact ⟨kept, ih a later⟩

/-- Work that begins with a list of the nodes goes on from the same server, if there is an answer. -/
theorem keeps_list {selector : Option String} {next : List Json → SiteWork β}
    {post : Except Error β → Server → Prop}
    (narrow : ∀ call s a s', E call s a s' → Exchange call s a s') (start : J s)
    (failed : ∀ e, post (.error e) s)
    (later : ∀ all, nodes.Listed selector s all → Keeps E J (next all) post s) :
    Keeps E J (onCluster (nodes.list "nodes" selector) >>= next) post s := by
  refine Keeps.bind (keeps_onCluster ((meets_narrow (Collection.meets_list rfl) narrow).mono ?_ ?_))
  · rintro s₀ s' rfl
    exact start
  rintro result s' ⟨rfl, listed⟩
  refine ⟨start, ?_⟩
  cases result with
  | ok all => exact later all (listed all rfl)
  | error e => exact failed e

/-- A request to relabel a node is carried out or not, and has been if it succeeds. -/
theorem meets_setLabel {value : Option String} {x : String} :
    (setLabel value x).run.Meets Exchange Eq (fun _ s' => s' = s ∨ s' = relabel value x s)
      (fun result s' => (s' = s ∨ s' = relabel value x s) ∧
        (result = .ok () → s' = relabel value x s ∧ ∃ v, nodes.at? x s = some v)) s := by
  unfold setLabel
  refine meets_bind (meets_exchange ?_)
  rintro s₁ rfl reply s₂ came
  have kept : s₂ = s ∨ s₂ = relabel value x s := by
    rcases came.cases with unchanged | ⟨r, same, served⟩
    · exact .inl unchanged
    · obtain rfl := Call.send.inj same
      exact .inr served
  refine ⟨kept, ?_⟩
  cases taken : Reply.read nodes.kind.read reply with
  | error e => exact ⟨kept, by rintro ⟨⟩⟩
  | ok v =>
    refine ⟨kept, fun _ => ?_⟩
    obtain ⟨rfl, served⟩ := answered_of_read came taken
    refine ⟨served, Option.ne_none_iff_exists'.mp fun absent => ?_⟩
    rw [serve_mergeRequest, absent] at taken
    simp [Reply.read_notFound] at taken

/-- Work that relabels one node fails with the node relabelled or not, and succeeds with the node
relabelled. -/
theorem keeps_setLabel {say : Error → String} {value : Option String} {x : String}
    {post : Except Error Unit → Server → Prop}
    (narrow : ∀ call s a s', E call s a s' → Exchange call s a s')
    (either : ∀ s', s' = s ∨ s' = relabel value x s → J s')
    (failed : ∀ e s', s' = s ∨ s' = relabel value x s → post (.error e) s')
    (done : post (.ok ()) (relabel value x s)) :
    Keeps E J (reporting say (onCluster (setLabel value x))) post s := by
  refine Keeps.reporting (keeps_onCluster
    ((meets_narrow meets_setLabel narrow).mono (fun _ s' kept => either s' kept) ?_))
  rintro result s' ⟨kept, carried⟩
  refine ⟨either s' kept, ?_⟩
  cases result with
  | error e => exact failed e s' kept
  | ok _ => exact (carried rfl).1 ▸ done

theorem BreaksOff.narrow {work : SiteWork α} (broken : BreaksOff E work s s')
    (narrow : ∀ call s a s', E call s a s' → F call s a s') : BreaksOff F work s s' := by
  obtain ⟨rest, leads⟩ := broken
  refine ⟨rest, ?_⟩
  generalize work.run = p at leads ⊢
  induction leads with
  | here => exact .here
  | @answered r _ _ _ _ _ _ came later ih =>
    refine .answered ?_ ih
    cases r with
    | inl call => exact narrow call _ _ _ came
    | inr e => exact came

theorem BreaksOff.faults {work : SiteWork α} (broken : BreaksOff Exchange work s s') :
    s'.faults = s.faults := by
  obtain ⟨rest, leads⟩ := broken
  generalize work.run = p at leads
  induction leads with
  | here => rfl
  | @answered r _ _ _ _ _ _ came later ih =>
    refine ih.trans ?_
    cases r with
    | inl call => exact Server.Exchange.faults came
    | inr e => exact congrArg Server.faults came

/-! ### Runs that nothing disturbs -/

def site : Program.Handler Site Server :=
  Server.handler.plus fun _ s => (some (), s)

theorem run_tell {e : Event} : (tell e).run.run site s = (some (.ok ()), s) := rfl

theorem run_onCluster {w : Work α} : (onCluster w).run.run site s = runOn s w := by
  have inLeft (p : Program Calls (Except Error α)) (s : Server) :
      (Program.inLeft (J := Reports) p).run site s = p.run Server.handler s := by
    induction p generalizing s with
    | done a => rfl
    | never => rfl
    | ask call next ih =>
      cases answered : Server.handler call s with
      | mk a s' =>
        have same : site (.inl call) s = (a, s') := answered
        cases a with
        | none =>
          exact (Program.run_unanswered same).trans (Program.run_unanswered answered).symm
        | some a =>
          exact (Program.run_ask same).trans ((ih a s').trans (Program.run_ask answered).symm)
  exact inLeft w.run s

theorem run_reporting {say : Error → String} {work : SiteWork α} :
    (reporting say work).run.run site s = work.run.run site s := by
  refine Program.run_bind.trans ?_
  show _ = Program.run site work s
  rcases Program.run site work s with ⟨_ | _ | _, _⟩ <;> rfl

theorem run_setLabel {v : Json} {value : Option String} (quiet : s.faults = [])
    (tidy : nodes.Tidy s) (readable : Readable s) (found : nodes.at? x s = some v) :
    runOn s (setLabel value x) = (some (.ok ()), relabel value x s) := by
  have read : ∃ w, Reply.read nodes.kind.read
      (s.serve (nodes.mergeRequest x (labelPatch value))).1 = .ok w := by
    rw [serve_mergeRequest, found]
    by_cases nothing : v.mergePatch (labelPatch value) = v
    · obtain ⟨w, read⟩ := readable x v found
      refine ⟨w, ?_⟩
      simp only [nothing, if_true, Reply.read_document]
      rw [show nodes.kind.read v = .ok w from read]
    · obtain ⟨w, read⟩ := reads_relabelled value (s.version + 1)
        (tidy.named x v found) (readable x v found)
      refine ⟨w, ?_⟩
      simp only [nothing, if_false, Server.write, Reply.read_document]
      rw [show nodes.kind.read _ = .ok w from read]
  obtain ⟨w, read⟩ := read
  unfold setLabel
  rw [runOn_bind, Collection.mergePatch, runOn_exchange quiet, read]
  rfl

def Relabels (value : Option String) (work : String → SiteWork Unit) : Prop :=
  ∀ s x v, s.faults = [] → nodes.Tidy s → Readable s → nodes.at? x s = some v →
    (work x).run.run site s = (some (.ok ()), relabel value x s)

theorem run_label : Relabels (some "true") label := by
  intro s x v quiet tidy readable found
  rw [label, run_reporting, run_onCluster, run_setLabel quiet tidy readable found]

theorem run_unlabel : Relabels none unlabel := by
  intro s x v quiet tidy readable found
  rw [unlabel, run_reporting, run_onCluster, run_setLabel quiet tidy readable found]

/-- On a server that answers, nodes that are stored can be relabelled one after the other. -/
theorem run_inOrder {value : Option String} {work : String → SiteWork Unit}
    (one : Relabels value work) (items : List String) (quiet : s.faults = [])
    (tidy : nodes.Tidy s) (readable : Readable s)
    (stored : ∀ x ∈ items, ∃ v, nodes.at? x s = some v) :
    (inOrder work items).run.run site s = (some (.ok ()), relabelAll value items s) := by
  induction items generalizing s with
  | nil => rfl
  | cons x rest ih =>
    obtain ⟨v, found⟩ := stored x (List.mem_cons_self ..)
    have first := relabelled_relabel value found
    rw [inOrder, Program.run_action_bind, one s x v quiet tidy readable found]
    refine ih (Server.faults_serve.trans quiet) (first.tidy tidy (Server.once_serve tidy.once))
      (readable_relabel tidy readable) fun y member => ?_
    obtain ⟨u, there⟩ := stored y (List.mem_cons_of_mem _ member)
    obtain ⟨w, still, -⟩ := first.after there
    exact ⟨w, still⟩

def Answering (E : Surroundings Calls Server) : Prop :=
  ∀ call s a s', s.faults = [] → Server.handler call s = (some a, s') → E call s a s'

theorem answering_exchange : Answering Exchange :=
  fun _ _ _ _ quiet answered => (exchange_of_handler quiet answered).1

theorem onSite_of_site (answering : Answering E) {r : Site.Request} {a : Site.Answer r}
    (quiet : s.faults = []) (answered : site r s = (some a, s')) :
    onSite E r s a s' ∧ s'.faults = [] := by
  cases r with
  | inl call =>
    exact ⟨answering call s a s' quiet answered, (exchange_of_handler quiet answered).2⟩
  | inr e =>
    obtain ⟨-, rfl⟩ := Prod.mk.inj answered
    exact ⟨rfl, quiet⟩

/-- A run on a server that answers is one of the runs. -/
theorem leads_of_run {work : SiteWork α} {result : Except Error α} (answering : Answering E)
    (quiet : s.faults = []) (ran : work.run.run site s = (some result, s')) :
    Program.Leads (onSite E) work.run s (.done result) s' :=
  Program.leads_of_run id (fun s => s.faults = []) (fun _ _ _ _ => onSite_of_site answering)
    quiet ran

/-- A run may break off behind any number of answers. -/
theorem breaksOff_advance (work : SiteWork α) (answering : Answering E) (quiet : s.faults = [])
    (k : Nat) : BreaksOff E work s (Program.advance site k work.run s).2 :=
  ⟨_, Program.leads_advance id (fun s => s.faults = [])
    (fun _ _ _ _ => onSite_of_site answering) k quiet⟩

end MultiCluster.Gateway
