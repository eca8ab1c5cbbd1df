import MultiCluster.Gateway.Action
import MultiCluster.Proofs.Cleanup

/-! What a reader of the reports learns about preparing gateways and removing them, whatever the
server answers. A step that is started comes to a success or a failure before the next one starts,
and the last event says how the work came out. The list of the nodes is left out of this: where it
fails the step stays open, and no event tells of the failure. -/
namespace MultiCluster

variable {xs ys : List Event} {e : Event} {m : String}

def Event.Closes (e : Event) : Prop := e.kind = .success ∨ e.kind = .failure

/-- Behind every start there is an event that says how the step went, and no other start before
it. -/
def Closed (events : List Event) : Prop :=
  ∀ before opened after, events = before ++ opened :: after → opened.kind = .start →
    ∃ within closing later, after = within ++ closing :: later ∧ closing.Closes ∧
      ∀ e ∈ within, e.kind ≠ .start

theorem closed_nil : Closed [] := by
  intro before opened after parts
  simp at parts

theorem closed_step (closes : e.Closes) : Closed [.start m, e] := by
  intro before opened after parts start
  rcases before with _ | ⟨first, _ | ⟨second, rest⟩⟩
  · obtain ⟨-, rfl⟩ := List.cons.inj parts
    exact ⟨[], e, [], rfl, closes, nofun⟩
  · obtain ⟨-, rest⟩ := List.cons.inj parts
    obtain ⟨rfl, -⟩ := List.cons.inj rest
    rcases closes with succeeded | failed
    · cases succeeded.symm.trans start
    · cases failed.symm.trans start
  · simp at parts

theorem Closed.append (first : Closed xs) (second : Closed ys) : Closed (xs ++ ys) := by
  intro before opened after parts start
  rcases List.append_eq_append_iff.mp parts with ⟨between, rfl, rest⟩ | ⟨inFirst, rfl, rest⟩
  · exact second between opened after rest start
  · cases inFirst with
    | nil => exact second [] opened after rest.symm start
    | cons head inFirst =>
      obtain ⟨rfl, rfl⟩ := List.cons.inj rest
      obtain ⟨within, closing, later, rfl, closes, none⟩ := first before opened inFirst rfl start
      exact ⟨within, closing, later ++ ys, by simp, closes, none⟩

theorem not_closed_of_open : ¬Closed (xs ++ [.start m]) := fun closed => by
  obtain ⟨within, closing, later, nothing, -⟩ := closed xs (.start m) [] rfl rfl
  simp at nothing

namespace Gateway

open Cluster

inductive Entry where
  | called (call : Call) (a : Calls.Answer call)
  | told (e : Event)

def Entry.event? : Entry → Option Event
  | .called _ _ => none
  | .told e => some e

def writing : Surroundings Site (List Entry)
  | .inl call, log, a, log' => log' = log ++ [.called call a]
  | .inr e, log, _, log' => log' = log ++ [.told e]

def events (log : List Entry) : List Event := log.filterMap Entry.event?

/-- The last thing that happened: the nodes could not be listed. -/
def Unlisted (log : List Entry) (failure : ApiError) : Prop :=
  ∃ (selector : Option String) (reply : Reply),
    log.getLast? = some (.called (.send (nodes.listRequest selector)) reply) ∧
      Reply.read nodes.kind.readList reply = .error failure

def outcome : Except Error Unit → EventKind
  | .ok _ => .success
  | .error _ => .failure

structure Told (result : Except Error Unit) (events : List Event) : Prop where
  last : events.getLast?.map Event.kind = some (outcome result)
  closed : Closed events

def carry (d : Deployer Site) : GatewayAction → SiteWork Unit
  | .prepare count => d.deploy count
  | .cleanup => d.cleanup

variable {α β : Type} {log log' : List Entry} {before : List Event} {failure : ApiError}
  {result : Except Error Unit} {work : SiteWork α} {post : Except Error α → List Entry → Prop}
  {s : Openstack.Settings} {error : Error} {say : Error → String} {selector : Option String}

theorem outcome_closes : Event.Closes ⟨outcome result, m⟩ := by
  cases result with
  | ok _ => exact .inl rfl
  | error _ => exact .inr rfl

@[simp] theorem events_told : events (log ++ [.told e]) = events log ++ [e] := by
  simp [events, Entry.event?]

@[simp] theorem events_called {call : Call} {a : Calls.Answer call} :
    events (log ++ [.called call a]) = events log := by
  simp [events, Entry.event?]

theorem not_unlisted_told : ¬Unlisted (log ++ [.told e]) failure := by
  rintro ⟨selector, reply, last, -⟩
  simp at last

def Ends (work : SiteWork α) (post : Except Error α → List Entry → Prop)
    (log : List Entry) : Prop :=
  work.run.Meets writing Eq (fun _ _ => True) post log

theorem Ends.imp {post' : Except Error α → List Entry → Prop} (ends : Ends work post log)
    (after : ∀ result log', post result log' → post' result log') : Ends work post' log :=
  Program.Meets.imp ends after

theorem Ends.bind {f : α → SiteWork β} {post : Except Error β → List Entry → Prop}
    (first : Ends work (fun result log' => match result with
      | .ok a => Ends (f a) post log'
      | .error e => post (.error e) log') log) : Ends (work >>= f) post log := by
  unfold Ends
  rw [ExceptT.run_bind]
  refine Program.Meets.bind (Program.Meets.imp first fun result log' ended => ?_)
  cases result with
  | ok a => exact ended
  | error e => exact ended

theorem ends_tell {post : Except Error Unit → List Entry → Prop}
    (told : post (.ok ()) (log ++ [.told e])) : Ends (tell e) post log := by
  rintro _ rfl _ _ rfl
  exact ⟨trivial, told⟩

/-- Calls are not events. -/
theorem ends_onCluster (w : Work α) :
    Ends (onCluster w) (fun _ log' => events log' = events log) log := by
  have calls (p : Program Calls (Except Error α)) (log₁ : List Entry)
      (same : events log₁ = events log) : (p.inLeft (J := Reports)).Meets writing Eq
        (fun _ _ => True) (fun _ log' => events log' = events log) log₁ := by
    induction p generalizing log₁ with
    | done a => exact same
    | never => trivial
    | ask call next ih =>
      rintro _ rfl a _ rfl
      exact ⟨trivial, ih a _ (events_called.trans same)⟩
  exact calls w.run log rfl

theorem ends_list : Ends (onCluster (nodes.list "nodes" selector)) (fun result log' =>
    events log' = events log ∧ ∀ error, result = .error error →
      ∃ failure, Unlisted log' failure ∧ error = .ofApi "nodes" failure) log := by
  unfold Ends onCluster Collection.list Action.inLeft
  rw [exchange_eq]
  rintro _ rfl reply _ rfl
  refine ⟨trivial, events_called, fun error failed => ?_⟩
  cases read : Reply.read nodes.kind.readList reply with
  | ok all => simp [read, blame] at failed
  | error failure =>
    rw [read] at failed
    exact ⟨failure, ⟨selector, reply, by simp, read⟩, (Except.error.inj failed).symm⟩

def Quietly (log : List Entry) (result : Except Error α) (log' : List Entry) : Prop :=
  match result with
  | .ok _ => events log' = events log
  | .error _ => ∃ m, events log' = events log ++ [.failure m] ∧ ∀ failure, ¬Unlisted log' failure

theorem ends_reporting (silent : Ends work (fun _ log' => events log' = events log) log) :
    Ends (reporting say work) (Quietly log) log := by
  refine Program.Meets.bind (Program.Meets.imp silent fun result log' same => ?_)
  cases result with
  | ok a => exact same
  | error e =>
    rintro _ rfl _ _ rfl
    exact ⟨trivial, say e, by rw [events_told, same], fun _ => not_unlisted_told⟩

theorem ends_inOrder {work : α → SiteWork Unit} (each : ∀ a log, Ends (work a) (Quietly log) log)
    (items : List α) (log : List Entry) : Ends (inOrder work items) (Quietly log) log := by
  induction items generalizing log with
  | nil => rfl
  | cons a rest ih =>
    refine Ends.bind ((each a log).imp fun result log' quiet => ?_)
    cases result with
    | error e => exact quiet
    | ok _ =>
      have same : events log' = events log := quiet
      exact (ih log').imp fun result log'' later => by simpa only [Quietly, same] using later

/-- A step was told of from its start to how it went, or the nodes that it needs could not be
listed. -/
inductive Step (before : List Event) (log : List Entry) : Except Error Unit → Prop
  | closed {result : Except Error Unit} {opened closing : String}
      (told : events log = before ++ [.start opened, ⟨outcome result, closing⟩])
      (listed : ∀ failure, ¬Unlisted log failure) : Step before log result
  | unlisted {opened : String} {failure : ApiError} (told : events log = before ++ [.start opened])
      (unlisted : Unlisted log failure) : Step before log (.error (.ofApi "nodes" failure))

theorem Step.of_quietly {result : Except Error α} (started : events log = before ++ [.start m])
    (quiet : Quietly log result log') (failed : result = .error error) :
    Step before log' (.error error) := by
  subst failed
  obtain ⟨closing, told, listed⟩ := quiet
  have whole : events log' = before ++ [.start m, ⟨outcome (.error error), closing⟩] := by
    rw [told, started, List.append_assoc]
    rfl
  exact .closed whole listed

/-- A step ends with the word that it succeeded. -/
theorem ends_success (started : events log = before ++ [.start m]) (closing : String) :
    Ends (tell (.success closing)) (fun result log' => Step before log' result) log := by
  have whole : events (log ++ [.told (.success closing)]) =
      before ++ [.start m, ⟨outcome (.ok ()), closing⟩] := by
    rw [events_told, started, List.append_assoc]
    rfl
  exact ends_tell (.closed whole fun _ => not_unlisted_told)

/-- A step goes on with work that says nothing but that it failed. -/
theorem Ends.step {f : α → SiteWork Unit} (started : events log = before ++ [.start m])
    (first : Ends work (Quietly log) log) (later : ∀ a log', events log' = before ++ [.start m] →
      Ends (f a) (fun result log' => Step before log' result) log') :
    Ends (work >>= f) (fun result log' => Step before log' result) log := by
  refine Ends.bind (first.imp fun result log' quiet => ?_)
  cases result with
  | error error => exact Step.of_quietly started quiet rfl
  | ok a => exact later a log' (Eq.trans quiet started)

/-- A step goes on with a list of the nodes. -/
theorem Ends.stepList {f : List Json → SiteWork Unit} (started : events log = before ++ [.start m])
    (later : ∀ all log', events log' = before ++ [.start m] →
      Ends (f all) (fun result log' => Step before log' result) log') :
    Ends (onCluster (nodes.list "nodes" selector) >>= f)
      (fun result log' => Step before log' result) log := by
  refine Ends.bind (ends_list.imp fun result log' ended => ?_)
  obtain ⟨same, failing⟩ := ended
  cases result with
  | ok all => exact later all log' (same.trans started)
  | error error =>
    obtain ⟨failure, unlisted, rfl⟩ := failing error rfl
    exact .unlisted (same.trans started) unlisted

theorem ends_label (node : String) (log : List Entry) :
    Ends (label node) (Quietly log) log :=
  ends_reporting (ends_onCluster _)

theorem ends_unlabel (node : String) (log : List Entry) :
    Ends (unlabel node) (Quietly log) log :=
  ends_reporting (ends_onCluster _)

theorem ends_labelGateways (count : Nat) (log : List Entry) :
    Ends (labelGateways count) (fun result log' => Step (events log) log' result) log := by
  refine Ends.bind (ends_tell (Ends.stepList events_told fun all log₁ started => ?_))
  refine Ends.step started (ends_reporting rfl) fun selection log₂ started => ?_
  refine Ends.step started (ends_inOrder ends_label _ _) fun _ log₃ started => ?_
  exact ends_success started _

theorem ends_removeLabels (log : List Entry) :
    Ends removeLabels (fun result log' => Step (events log) log' result) log := by
  refine Ends.bind (ends_tell (Ends.stepList events_told fun labelled log₁ started => ?_))
  refine Ends.step started (ends_inOrder ends_unlabel _ _) fun _ log₂ started => ?_
  exact ends_success started _

theorem ends_deployMachines (count : Nat) (log : List Entry) :
    Ends (Openstack.deployMachines s count) (fun result log' => Step (events log) log' result)
      log := by
  refine Ends.bind (ends_tell ?_)
  refine Ends.step events_told (ends_reporting (ends_onCluster _)) fun _ log₁ started => ?_
  exact ends_success started _

def EndsInStep (result : Except Error Unit) (log : List Entry) : Prop :=
  ∃ before, Closed before ∧ Step before log result

theorem ends_removeMachines (log : List Entry) (closed : Closed (events log)) :
    Ends (Openstack.removeMachines s) EndsInStep log := by
  refine Ends.bind (ends_tell (Ends.bind ((ends_reporting (ends_onCluster _)).imp
    fun result log₁ quiet => ?_)))
  cases result with
  | error error => exact ⟨_, closed, .of_quietly events_told quiet rfl⟩
  | ok deleted =>
    refine Ends.bind (ends_tell ((ends_removeLabels _).imp fun result log₂ step => ⟨_, ?_, step⟩))
    rw [events_told, show events log₁ = _ from quiet, events_told, List.append_assoc]
    exact closed.append (closed_step (.inl rfl))

theorem ends_carry (d : Option Openstack.Settings) (action : GatewayAction) :
    Ends (carry (deployerFor d) action) EndsInStep [] := by
  have single {work : SiteWork Unit}
      (ends : Ends work (fun result log' => Step [] log' result) []) : Ends work EndsInStep [] :=
    ends.imp fun _ _ step => ⟨[], closed_nil, step⟩
  cases action with
  | prepare count =>
    cases d with
    | none => exact single (ends_labelGateways count [])
    | some s =>
      by_cases dedicated : s.dedicated = true
      · rw [show carry (deployerFor (some s)) (.prepare count) =
          Openstack.deployMachines s count from if_pos dedicated]
        exact single (ends_deployMachines count [])
      · rw [show carry (deployerFor (some s)) (.prepare count) =
          labelGateways count from if_neg dedicated]
        exact single (ends_labelGateways count [])
  | cleanup =>
    cases d with
    | none => exact single (ends_removeLabels [])
    | some s => exact ends_removeMachines [] closed_nil

theorem Step.told {result : Except Error Unit} (step : Step before log result)
    (closed : Closed before) (listed : ∀ failure, ¬Unlisted log failure) :
    Told result (events log) := by
  cases step with
  | unlisted told unlisted => exact absurd unlisted (listed _)
  | closed told listed =>
    refine ⟨by simp [told], ?_⟩
    rw [told]
    exact closed.append (closed_step outcome_closes)

theorem Step.of_unlisted {result : Except Error Unit} (step : Step before log result)
    (unlisted : Unlisted log failure) :
    result = .error (.ofApi "nodes" failure) ∧ ∃ m, events log = before ++ [.start m] := by
  cases step with
  | closed told listed => exact absurd unlisted (listed _)
  | @unlisted opened failure' told unlisted' =>
    obtain ⟨selector, reply, last, read⟩ := unlisted
    obtain ⟨selector', reply', last', read'⟩ := unlisted'
    obtain ⟨-, same⟩ := Entry.called.inj (Option.some.inj (last.symm.trans last'))
    obtain rfl : reply = reply' := eq_of_heq same
    obtain rfl : failure = failure' := Except.error.inj (read.symm.trans read')
    exact ⟨rfl, opened, told⟩

/-- Preparing gateways and removing them tells how it came out, on every platform and whatever the
server answers: the last event is a success or a failure as the result is, and every step is closed.
That is so exactly if the run did not come to its end because the nodes could not be listed. If it
did, the result says so, but behind the last start there is no event. -/
theorem told_iff_listed (d : Option Openstack.Settings) (action : GatewayAction)
    {result : Except Error Unit} {log : List Entry}
    (ran : Program.Leads writing (carry (deployerFor d) action).run [] (.done result) log) :
    (Told result (events log) ↔ ∀ failure, ¬Unlisted log failure) ∧
    ∀ failure, Unlisted log failure → result = .error (.ofApi "nodes" failure) ∧
      ∃ before m, Closed before ∧ events log = before ++ [.start m] := by
  obtain ⟨before, closed, step⟩ := Program.Meets.result (ends_carry d action) ran
  refine ⟨⟨fun told failure unlisted => ?_, step.told closed⟩, fun failure unlisted => ?_⟩
  · obtain ⟨-, m, left⟩ := step.of_unlisted unlisted
    exact not_closed_of_open (left ▸ told.closed)
  · obtain ⟨failed, m, left⟩ := step.of_unlisted unlisted
    exact ⟨failed, before, m, closed, left⟩

def noting : Program.Handler Site (Server × List Entry)
  | .inl call, (s, log) =>
    match Server.handler call s with
    | (some a, s') => (some a, s', log ++ [.called call a])
    | (none, s') => (none, s', log)
  | .inr e, (s, log) => (some (), s, log ++ [.told e])

theorem leads_of_noting {s s' : Server} {result : Except Error α}
    (ran : work.run.run noting (s, log) = (some result, s', log')) :
    Program.Leads writing work.run log (.done result) log' := by
  refine Program.leads_of_run Prod.snd (fun _ => True) ?_ trivial ran
  rintro r ⟨s₁, log₁⟩ a ⟨s₂, log₂⟩ - answered
  refine ⟨?_, trivial⟩
  cases r with
  | inr e =>
    obtain ⟨-, same⟩ := Prod.mk.inj answered
    exact (congrArg Prod.snd same).symm
  | inl call =>
    simp only [noting] at answered
    split at answered
    · next b s₃ _ =>
      obtain ⟨given, same⟩ := Prod.mk.inj answered
      obtain rfl := Option.some.inj given
      exact (congrArg Prod.snd same).symm
    · cases answered

def watched (d : Option Openstack.Settings) (action : GatewayAction) (s : Server) :
    Option (Except Error Unit) × Server × List Entry :=
  (carry (deployerFor d) action).run.run noting (s, [])

theorem leads_watched {d : Option Openstack.Settings} {action : GatewayAction} {s : Server}
    (came : (watched d action s).1 = some result) :
    Program.Leads writing (carry (deployerFor d) action).run [] (.done result)
      (watched d action s).2.2 :=
  leads_of_noting (Prod.ext came rfl)

/-- Where there are no machines and no gateways, nothing is left to remove, and that is told. -/
theorem told_nothing_to_remove :
    (watched (some exampleSettings) .cleanup ⟨[], [], 0, []⟩).1 = some (.ok ()) ∧
      events (watched (some exampleSettings) .cleanup ⟨[], [], 0, []⟩).2.2 = [
        .start "Removing gateway MachineSet infra-submariner-gw",
        .success "MachineSet infra-submariner-gw not present",
        .start "Removing gateway labels",
        .success "Removed the gateway label from 0 node(s)"] ∧
      Told (.ok ()) (events (watched (some exampleSettings) .cleanup ⟨[], [], 0, []⟩).2.2) := by
  have came : (watched (some exampleSettings) .cleanup ⟨[], [], 0, []⟩).1 = some (.ok ()) := by
    decide +kernel
  obtain ⟨told, unlisted⟩ := told_iff_listed _ _ (leads_watched came)
  exact ⟨came, by decide +kernel, told.mpr fun failure none => nomatch (unlisted failure none).1⟩

def nodeless : Server :=
  ⟨[], [], 0, [⟨some .get, "/api/v1/nodes", none, .failure 500 "InternalError" "etcd is down"⟩]⟩

def etcdDown : Error := .ofApi "nodes" (.answer "Failure" "etcd is down" "InternalError" 500)

/-- Not every failure is told. Where the nodes cannot be listed, the reader sees that workers are
being labelled, or that labels are being removed, and nothing after that. -/
theorem untold_unlisted :
    ((watched none (.prepare 1) nodeless).1 = some (.error etcdDown) ∧
      events (watched none (.prepare 1) nodeless).2.2 = [.start "Labelling 1 gateway node(s)"]) ∧
    ((watched (some exampleSettings) .cleanup nodeless).1 = some (.error etcdDown) ∧
      events (watched (some exampleSettings) .cleanup nodeless).2.2 = [
        .start "Removing gateway MachineSet infra-submariner-gw",
        .success "MachineSet infra-submariner-gw not present",
        .start "Removing gateway labels"]) ∧
    ¬∀ (d : Option Openstack.Settings) (action : GatewayAction) (result : Except Error Unit)
      (log : List Entry),
      Program.Leads writing (carry (deployerFor d) action).run [] (.done result) log →
        Told result (events log) := by
  have came : (watched none (.prepare 1) nodeless).1 = some (.error etcdDown) := by decide +kernel
  have seen : events (watched none (.prepare 1) nodeless).2.2 =
      [.start "Labelling 1 gateway node(s)"] := by decide +kernel
  refine ⟨⟨came, seen⟩, by decide +kernel, fun always => ?_⟩
  have told := always none (.prepare 1) _ _ (leads_watched came)
  rw [seen] at told
  exact absurd told.last (by decide)

end Gateway
end MultiCluster
