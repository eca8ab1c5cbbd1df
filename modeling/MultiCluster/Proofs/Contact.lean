import MultiCluster.Proofs.CallOrder

/-! What becomes of a step when its appliers answer as they like, the run is cancelled meanwhile, or
time runs out. Every call is written down with the way in which its answer reached the step. An
answer that arrives in time leads the step on; with every other one it ends, or waits for ever. -/
namespace MultiCluster.Deploy

open Program

structure Contact where
  call : ApplierCall
  delivery : Delivery (Except Error call.Result)

namespace Contact

def cancels (v : Contact) : Bool :=
  match v.delivery with
  | .arrived _ cancels _ => cancels
  | .interrupted _ => true
  | .lost => false

def waits (v : Contact) : Bool :=
  match v.delivery with
  | .arrived none _ _ => false
  | _ => true

def time (v : Contact) : Duration :=
  match v.delivery with
  | .arrived wait _ _ => wait.getD .zero
  | .interrupted after => after
  | .lost => .zero

def answer? (v : Contact) : Option (Except Error v.call.Result) :=
  match v.delivery with
  | .arrived _ _ a => some a
  | _ => none

def visit (v : Contact) : Visit := ⟨v.call, v.answer?⟩

end Contact

def spent (contacts : List Contact) : Duration :=
  contacts.foldl (fun d v => d.add v.time) .zero

/-! What follows is about a call of a step and the step's calls before it. -/

/-- The step has to wait although the run has been cancelled, or the run is cancelled while it
waits and has not yet waited for longer than the limit. -/
structure CutOff (limit : Option Duration) (earlier : List Contact) (v : Contact) : Prop where
  waits : v.waits = true
  cancelled : (∃ u ∈ earlier, u.cancels = true) ∨ (∃ after, v.delivery = .interrupted after) ∧
    ∀ l, limit = some l → (spent (earlier ++ [v])).nanos ≤ l.nanos

structure Late (limit : Duration) (earlier : List Contact) (v : Contact) : Prop where
  undisturbed : ∀ u ∈ earlier, u.cancels = false
  waits : v.waits = true
  long : v.delivery = .lost ∨ limit.nanos < (spent (earlier ++ [v])).nanos

structure Stalled (limit : Option Duration) (earlier : List Contact) (v : Contact) : Prop where
  undisturbed : ∀ u ∈ earlier, u.cancels = false
  lost : v.delivery = .lost
  unlimited : limit = none

structure Reached (limit : Option Duration) (earlier : List Contact) (v : Contact) : Prop where
  answered : ∃ a, v.answer? = some a
  inTime : v.waits = true → (∀ u ∈ earlier, u.cancels = false) ∧
    ∀ l, limit = some l → (spent (earlier ++ [v])).nanos ≤ l.nanos

/-- With what error a step ends at a call; with none if it does not end. -/
inductive Halts (limit : Option Duration) (earlier : List Contact) (v : Contact) :
    Option Error → Prop
  | cutOff : CutOff limit earlier v →
      Halts limit earlier v (some (.cancelled (v.call.step.name ++ " step")))
  | late {l : Duration} : limit = some l → Late l earlier v → Halts limit earlier v
      (some (.cancelled (v.call.step.name ++ " step timed out after " ++ l.text)))
  | stalled : Stalled limit earlier v → Halts limit earlier v none
  | failed {e : Error} : Reached limit earlier v → v.answer? = some (.error e) →
      Halts limit earlier v (some e)

def own (v : Contact) (contacts : List Contact) : List Contact :=
  contacts.filter fun u => u.call.step = v.call.step

def Smooth (limit : Option Duration) (log : List Contact) : Prop :=
  ∀ before v, before ++ [v] <+: log → Reached limit (own v before) v ∧ v.visit.succeeded

variable {σ : Type} {h : (c : ApplierCall) → σ → Delivery (Except Error c.Result) × σ}
  {limit : Option Duration} {cluster : String} {p : Plan} {step : Step} {s : σ}
  {earlier made seen log before : List Contact} {u v : Contact} {l : Duration}

/-! ### One thing or the other -/

theorem exists_interrupted (cancels : v.cancels = true) (unanswered : v.answer?.isSome = false) :
    ∃ after, v.delivery = .interrupted after := by
  obtain ⟨call, delivery⟩ := v
  cases delivery with
  | arrived wait cancels a => cases unanswered
  | interrupted after => exact ⟨after, rfl⟩
  | lost => cases cancels

theorem CutOff.not_reached (cut : CutOff limit earlier v) : ¬ Reached limit earlier v := by
  rintro ⟨⟨a, answered⟩, inTime⟩
  rcases cut.cancelled with ⟨u, member, cancels⟩ | ⟨⟨after, interrupted⟩, -⟩
  · exact Bool.noConfusion (cancels.symm.trans ((inTime cut.waits).1 u member))
  · rw [Contact.answer?, interrupted] at answered
    cases answered

theorem Late.not_reached (late : Late l earlier v) : ¬ Reached (some l) earlier v := by
  rintro ⟨⟨a, answered⟩, inTime⟩
  rcases late.long with lost | longer
  · rw [Contact.answer?, lost] at answered
    cases answered
  · exact absurd ((inTime late.waits).2 l rfl) (Nat.not_le.mpr longer)

theorem Stalled.not_reached (stalled : Stalled limit earlier v) : ¬ Reached limit earlier v := by
  rintro ⟨⟨a, answered⟩, -⟩
  rw [Contact.answer?, stalled.lost] at answered
  cases answered

theorem Late.not_cutOff (late : Late l earlier v) : ¬ CutOff (some l) earlier v := by
  rintro ⟨-, ⟨u, member, cancels⟩ | ⟨⟨after, interrupted⟩, inTime⟩⟩
  · exact Bool.noConfusion (cancels.symm.trans (late.undisturbed u member))
  · rcases late.long with lost | longer
    · rw [interrupted] at lost
      cases lost
    · exact absurd (inTime l rfl) (Nat.not_le.mpr longer)

theorem Stalled.not_cutOff (stalled : Stalled limit earlier v) : ¬ CutOff limit earlier v := by
  rintro ⟨-, ⟨u, member, cancels⟩ | ⟨⟨after, interrupted⟩, -⟩⟩
  · exact Bool.noConfusion (cancels.symm.trans (stalled.undisturbed u member))
  · exact nomatch stalled.lost.symm.trans interrupted

/-- A call does not end its step in two ways. -/
theorem Halts.unique {first second : Option Error} (halts : Halts limit earlier v first)
    (other : Halts limit earlier v second) : first = second := by
  cases halts with
  | cutOff cut =>
    cases other with
    | cutOff _ => rfl
    | late limited late => exact absurd (limited ▸ cut) late.not_cutOff
    | stalled stalled => exact absurd cut stalled.not_cutOff
    | failed reached _ => exact absurd reached cut.not_reached
  | late limited late =>
    subst limited
    cases other with
    | cutOff cut => exact absurd cut late.not_cutOff
    | late limited _ => rw [Option.some.inj limited]
    | stalled stalled => exact nomatch stalled.unlimited
    | failed reached _ => exact absurd reached late.not_reached
  | stalled stalled =>
    cases other with
    | cutOff cut => exact absurd cut stalled.not_cutOff
    | late limited _ => exact nomatch limited.symm.trans stalled.unlimited
    | stalled _ => rfl
    | failed reached _ => exact absurd reached stalled.not_reached
  | failed reached refused =>
    cases other with
    | cutOff cut => exact absurd reached cut.not_reached
    | late limited late => exact absurd (limited ▸ reached) late.not_reached
    | stalled stalled => exact absurd reached stalled.not_reached
    | failed _ refused' =>
      rw [Except.error.inj (Option.some.inj (refused.symm.trans refused'))]

/-! ### One call -/

def attending (h : (c : ApplierCall) → σ → Delivery (Except Error c.Result) × σ) :
    Handler (timed ApplierCalls) (σ × List Contact)
  | .report _, t => (some (), t)
  | .work call, (s, log) =>
    let (d, s') := h call s
    (some d, s', log ++ [⟨call, d⟩])

theorem spent_append : spent (earlier ++ [v]) = (spent earlier).add v.time := by
  rw [spent, List.foldl_append]
  rfl

theorem exceeded_eq_none_iff {elapsed : Duration} : exceeded elapsed limit = none ↔
    ∀ l, limit = some l → elapsed.nanos ≤ l.nanos := by
  simp [exceeded, Option.filter_eq_none_iff]

theorem exceeded_eq_some_iff {elapsed : Duration} : exceeded elapsed limit = some l ↔
    limit = some l ∧ l.nanos < elapsed.nanos := by
  simp [exceeded, Option.filter_eq_some_iff]

def Step.conclude (step : Step) : Ending (Except Error Outcome) → Except Error Outcome
  | .finished result => result
  | .cancelled => .error (.cancelled (step.name ++ " step"))
  | .timedOut l => .error (.cancelled (step.name ++ " step timed out after " ++ l.text))

def Step.close {τ : Type} (step : Step) (ran : Option (Ending (Except Error Outcome) × Bool) × τ) :
    Option (Except Error Outcome × Bool) × τ :=
  (ran.1.map fun ended => (step.conclude ended.1, ended.2), ran.2)

section

variable {call : ApplierCall}
  {next : ApplierCalls.Answer call → Program ApplierCalls (Except Error Outcome)}
  {d : Delivery (Except Error call.Result)} {a : Except Error call.Result} {s' : σ}
  {elapsed wait after : Duration} {cancelled cancels : Bool}

theorem attending_work (log : List Contact) (came : h call s = (d, s')) :
    attending h (.work call) (s, log) = (some d, s', log ++ [⟨call, d⟩]) := by
  simp only [attending, came]
  rfl

/-- An answer that need not be waited for. -/
theorem run_at_once (came : h call s = (.arrived none cancels a, s')) :
    (bounded limit (.ask (I := ApplierCalls) call next) elapsed cancelled).run (attending h)
        (s, log) =
      (bounded limit (next a) elapsed (cancelled || cancels)).run (attending h)
        (s', log ++ [⟨call, .arrived none cancels a⟩]) := by
  conv_lhs => unfold bounded
  exact run_ask (I := timed ApplierCalls) (attending_work log came)

/-- An answer that is waited for and arrives in time. -/
theorem run_waited (came : h call s = (.arrived (some wait) cancels a, s'))
    (inTime : exceeded (elapsed.add wait) limit = none) :
    (bounded limit (.ask (I := ApplierCalls) call next) elapsed false).run (attending h) (s, log) =
      (bounded limit (next a) (elapsed.add wait) cancels).run (attending h)
        (s', log ++ [⟨call, .arrived (some wait) cancels a⟩]) := by
  conv_lhs => unfold bounded
  refine (run_ask (I := timed ApplierCalls) (attending_work log came)).trans ?_
  simp only [inTime]
  rfl

theorem run_cutOff (came : h call s = (d, s')) (waits : Contact.waits ⟨call, d⟩ = true) :
    (bounded limit (.ask (I := ApplierCalls) call next) elapsed true).run (attending h) (s, log) =
      (some (.cancelled, true), s', log ++ [⟨call, d⟩]) := by
  conv_lhs => unfold bounded
  refine (run_ask (I := timed ApplierCalls) (attending_work log came)).trans ?_
  rcases d with ⟨_ | wait, cancels, a⟩ | after | _
  · exact absurd waits Bool.false_ne_true
  all_goals rfl

theorem run_interrupted (came : h call s = (.interrupted after, s'))
    (inTime : exceeded (elapsed.add after) limit = none) :
    (bounded limit (.ask (I := ApplierCalls) call next) elapsed false).run (attending h) (s, log) =
      (some (.cancelled, true), s', log ++ [⟨call, .interrupted after⟩]) := by
  conv_lhs => unfold bounded
  refine (run_ask (I := timed ApplierCalls) (attending_work log came)).trans ?_
  simp only [inTime]
  rfl

theorem run_late (log : List Contact)
    (next : ApplierCalls.Answer call → Program ApplierCalls (Except Error Outcome))
    (elapsed : Duration) (came : h call s = (d, s')) (waits : Contact.waits ⟨call, d⟩ = true)
    (limited : limit = some l)
    (long : d = .lost ∨ exceeded (elapsed.add (Contact.time ⟨call, d⟩)) limit = some l) :
    ∃ cancelled, (bounded limit (.ask (I := ApplierCalls) call next) elapsed false).run
      (attending h) (s, log) = (some (.timedOut l, cancelled), s', log ++ [⟨call, d⟩]) := by
  subst limited
  have asked := attending_work log came
  rcases d with ⟨_ | wait, cancels, a⟩ | after | _
  · exact absurd waits Bool.false_ne_true
  · have longer : exceeded (elapsed.add wait) (some l) = some l :=
      long.resolve_left fun lost => by cases lost
    refine ⟨cancels, ?_⟩
    conv_lhs => unfold bounded
    refine (run_ask (I := timed ApplierCalls) asked).trans ?_
    simp only [longer]
    rfl
  · have longer : exceeded (elapsed.add after) (some l) = some l :=
      long.resolve_left fun lost => by cases lost
    refine ⟨false, ?_⟩
    conv_lhs => unfold bounded
    refine (run_ask (I := timed ApplierCalls) asked).trans ?_
    simp only [longer]
    rfl
  · refine ⟨false, ?_⟩
    conv_lhs => unfold bounded
    exact run_ask (I := timed ApplierCalls) asked

theorem run_stalled (came : h call s = (.lost, s')) :
    (bounded none (.ask (I := ApplierCalls) call next) elapsed false).run (attending h) (s, log) =
      (none, s', log ++ [⟨call, .lost⟩]) := by
  conv_lhs => unfold bounded
  exact run_ask (I := timed ApplierCalls) (attending_work log came)

/-- After a call, a step goes on with the answer or ends. -/
theorem run_contact (limit : Option Duration) (earlier log : List Contact)
    (next : ApplierCalls.Answer call → Program ApplierCalls (Except Error Outcome))
    (came : h call s = (d, s')) :
    let v : Contact := ⟨call, d⟩
    let ran := (bounded limit (.ask (I := ApplierCalls) call next) (spent earlier)
      (earlier.any Contact.cancels)).run (attending h) (s, log)
    (∃ a, Reached limit earlier v ∧ v.answer? = some a ∧
      ran = (bounded limit (next a) (spent (earlier ++ [v]))
        ((earlier ++ [v]).any Contact.cancels)).run (attending h) (s', log ++ [v])) ∨
    ∃ error cancelled, Halts limit earlier v error ∧
      call.step.close ran = (error.map fun e => (.error e, cancelled), s', log ++ [v]) := by
  intro v ran
  have whole : spent (earlier ++ [v]) = (spent earlier).add v.time := spent_append
  have flag : (earlier ++ [v]).any Contact.cancels =
      (earlier.any Contact.cancels || v.cancels) := by simp
  have ran_eq : ran = (bounded limit (.ask (I := ApplierCalls) call next) (spent earlier)
    (earlier.any Contact.cancels)).run (attending h) (s, log) := rfl
  have ended {ending : Ending (Except Error Outcome)} {cancelled : Bool} {error : Error}
      (halts : Halts limit earlier v (some error))
      (ends : ran = (some (ending, cancelled), s', log ++ [v]))
      (concludes : call.step.conclude ending = .error error) :
      ∃ error cancelled, Halts limit earlier v error ∧
        call.step.close ran = (error.map fun e => (.error e, cancelled), s', log ++ [v]) := by
    refine ⟨_, cancelled, halts, ?_⟩
    rw [ends, Step.close, Option.map_some, Option.map_some, concludes]
  rw [flag, whole]
  by_cases waits : v.waits = true
  · cases disturbed : earlier.any Contact.cancels with
    | true =>
      rw [disturbed, run_cutOff came waits] at ran_eq
      exact .inr (ended (.cutOff ⟨waits, .inl (List.any_eq_true.mp disturbed)⟩) ran_eq rfl)
    | false =>
      rw [disturbed] at ran_eq
      have undisturbed : ∀ u ∈ earlier, u.cancels = false := by
        simpa only [List.any_eq_false, Bool.not_eq_true] using disturbed
      cases overrun : exceeded ((spent earlier).add v.time) limit with
      | some l =>
        obtain ⟨limited, longer⟩ := exceeded_eq_some_iff.mp overrun
        obtain ⟨cancelled, late⟩ :=
          run_late log next (spent earlier) came waits limited (.inr overrun)
        exact .inr (ended (.late limited ⟨undisturbed, waits, .inr (whole ▸ longer)⟩)
          (ran_eq.trans late) rfl)
      | none =>
        have inTime : ∀ l, limit = some l → (spent (earlier ++ [v])).nanos ≤ l.nanos :=
          whole ▸ exceeded_eq_none_iff.mp overrun
        rcases d with ⟨_ | wait, cancels, a⟩ | after | _
        · exact absurd waits Bool.false_ne_true
        · exact .inl ⟨a, ⟨⟨a, rfl⟩, fun _ => ⟨undisturbed, inTime⟩⟩, rfl,
            ran_eq.trans (run_waited came overrun)⟩
        · exact .inr (ended (.cutOff ⟨waits, .inr ⟨⟨after, rfl⟩, inTime⟩⟩)
            (ran_eq.trans (run_interrupted came overrun)) rfl)
        · cases limited : limit with
          | some l =>
            subst limited
            obtain ⟨cancelled, late⟩ :=
              run_late log next (spent earlier) came waits rfl (.inl rfl)
            exact .inr (ended (.late rfl ⟨undisturbed, waits, .inl rfl⟩) (ran_eq.trans late) rfl)
          | none =>
            subst limited
            refine .inr ⟨none, false, .stalled ⟨undisturbed, rfl, rfl⟩, ?_⟩
            rw [ran_eq, run_stalled came]
            rfl
  · rcases d with ⟨_ | wait, cancels, a⟩ | after | _
    · exact .inl ⟨a, ⟨⟨a, rfl⟩, fun wait => absurd wait waits⟩, rfl,
        ran_eq.trans (run_at_once came)⟩
    all_goals exact absurd rfl waits

end

/-! ### One step -/

inductive Stepped (limit : Option Duration) (p : Plan) (step : Step) :
    List Contact → Option (Except Error Outcome) → Prop
  | passed {made : List Contact} {outcome : Outcome} : made.map (·.call) = p.stepCalls step →
      Smooth limit made → (made.map Contact.visit).filterMap Visit.entry? = [(step, outcome)] →
      Stepped limit p step made (some (.ok outcome))
  | halted {earlier : List Contact} {v : Contact} {error : Option Error} :
      (earlier ++ [v]).map (·.call) <+: p.stepCalls step → Smooth limit earlier →
      Halts limit earlier v error → Stepped limit p step (earlier ++ [v]) (error.map .error)

theorem Stepped.calls_prefix {result : Option (Except Error Outcome)}
    (stepped : Stepped limit p step made result) : made.map (·.call) <+: p.stepCalls step := by
  cases stepped with
  | passed whole _ _ => exact whole ▸ List.prefix_rfl
  | halted inside _ _ => exact inside

/-- From the calls that it has made, and that succeeded, a step goes on to an end as its calls say.
If that is a success, they also say whether the run is cancelled. -/
def Steps (h : (c : ApplierCall) → σ → Delivery (Except Error c.Result) × σ)
    (limit : Option Duration) (p : Plan) (step : Step) (earlier : List Contact)
    (work : Program ApplierCalls (Except Error Outcome)) : Prop :=
  ∀ s log, ∃ later result cancelled s', Stepped limit p step (earlier ++ later) result ∧
    step.close ((bounded limit work (spent earlier) (earlier.any Contact.cancels)).run
      (attending h) (s, log)) = (result.map (·, cancelled), s', log ++ later) ∧
    ∀ outcome, result = some (.ok outcome) → cancelled = (earlier ++ later).any Contact.cancels

theorem smooth_nil : Smooth limit [] := by
  rintro before v ⟨rest, same⟩
  simp at same

theorem smooth_concat (smooth : Smooth limit log) (reached : Reached limit (own v log) v)
    (succeeded : v.visit.succeeded) : Smooth limit (log ++ [v]) := by
  intro before u start
  rcases List.prefix_concat_iff.mp start with same | start
  · obtain ⟨rfl, last⟩ := List.append_inj' same rfl
    obtain rfl := List.singleton_inj.mp last
    exact ⟨reached, succeeded⟩
  · exact smooth before u start

theorem own_eq (same : ∀ u ∈ seen, u.call.step = v.call.step) : own v seen = seen :=
  List.filter_eq_self.mpr fun u member => decide_eq_true (same u member)

theorem steps_done {outcome : Outcome} (whole : earlier.map (·.call) = p.stepCalls step)
    (smooth : Smooth limit earlier)
    (entry : (earlier.map Contact.visit).filterMap Visit.entry? = [(step, outcome)]) :
    Steps h limit p step earlier (.done (.ok outcome)) := by
  intro s log
  refine ⟨[], some (.ok outcome), earlier.any Contact.cancels, s, ?_, ?_, fun _ _ => ?_⟩
  · rw [List.append_nil]
    exact .passed whole smooth entry
  · rw [List.append_nil]
    rfl
  · rw [List.append_nil]

/-- A call that fails ends the step; after one that succeeds the step goes on. -/
theorem steps_call {call : ApplierCall}
    {next : ApplierCalls.Answer call → Program ApplierCalls (Except Error Outcome)}
    (calls : earlier.map (·.call) ++ [call] <+: p.stepCalls step) (smooth : Smooth limit earlier)
    (error : ∀ e, next (.error e) = .done (.error e))
    (ok : ∀ d r, (⟨call, d⟩ : Contact).answer? = some (.ok r) →
      Smooth limit (earlier ++ [(⟨call, d⟩ : Contact)]) →
      Steps h limit p step (earlier ++ [(⟨call, d⟩ : Contact)]) (next (.ok r))) :
    Steps h limit p step earlier (.ask (I := ApplierCalls) call next) := by
  intro s log
  have own_step {c : ApplierCall} (member : c ∈ earlier.map (·.call) ++ [call]) : c.step = step :=
    step_of_stepCalls (calls.subset member)
  obtain rfl : call.step = step := own_step (by simp)
  rcases came : h call s with ⟨d, s'⟩
  have alone : own ⟨call, d⟩ earlier = earlier := own_eq fun u member =>
    own_step (List.mem_append_left _ (List.mem_map_of_mem member))
  have inside : (earlier ++ [(⟨call, d⟩ : Contact)]).map (·.call) <+: p.stepCalls call.step := by
    rwa [List.map_append, List.map_singleton]
  rcases run_contact limit earlier log next came with
    ⟨a, reached, answered, ran⟩ | ⟨error', cancelled, halts, ended⟩
  · have ended := congrArg call.step.close ran
    cases a with
    | error e =>
      rw [error e] at ended
      exact ⟨[⟨call, d⟩], some (.error e), _, s',
        @Stepped.halted _ _ _ _ _ (some e) inside smooth (.failed reached answered), ended, nofun⟩
    | ok r =>
      obtain ⟨later, result, cancelled, s₂, stepped, closed, flag⟩ := ok d r answered
        (smooth_concat smooth (alone.symm ▸ reached) ⟨r, answered⟩) s' (log ++ [⟨call, d⟩])
      rw [List.append_assoc] at stepped closed flag
      exact ⟨⟨call, d⟩ :: later, result, cancelled, s₂, stepped, ended.trans closed, flag⟩
  · refine ⟨[⟨call, d⟩], _, cancelled, s', .halted inside smooth halts, ended.trans ?_, by simp⟩
    rw [Option.map_map]
    rfl

theorem steps_single {call : ApplierCall} {view : ApplierCalls.Answer call → Except Error Outcome}
    (only : p.stepCalls step = [call])
    (ok : ∀ r, ∃ o, view (.ok r) = .ok o ∧ call.outcome? r = some o)
    (error : ∀ e, view (.error e) = .error e) :
    Steps h limit p step [] (.ask (I := ApplierCalls) call fun a => .done (view a)) := by
  have own : call.step = step := step_of_stepCalls (only ▸ List.mem_singleton_self call)
  refine steps_call (only ▸ List.prefix_rfl) smooth_nil (fun e => by rw [error e])
    fun d r answered smooth => ?_
  obtain ⟨o, viewed, given⟩ := ok r
  rw [viewed]
  refine steps_done only.symm smooth ?_
  simp [Visit.entry?, Contact.visit, answered, given, own]

/-- Validation and writing share the limit, and a cancellation in the one cuts the other off. -/
theorem steps_globalnet : Steps h limit p .globalnet [] (work callers p .globalnet).run := by
  rw [work_globalnet]
  refine steps_call ⟨[_], rfl⟩ smooth_nil (fun e => rfl) fun d r validated smooth => ?_
  refine steps_call List.prefix_rfl smooth (fun e => rfl) fun d' o ensured smooth' => ?_
  refine steps_done rfl smooth' ?_
  have silent : Visit.entry? (Contact.visit ⟨.validateRecord p.namespaceName p.record, d⟩) =
      none := by
    simp only [Visit.entry?, Contact.visit]
    rw [validated]
    rfl
  have entry : Visit.entry? (Contact.visit ⟨.ensureRecord p.namespaceName p.record, d'⟩) =
      some (.globalnet, o) := by
    simp only [Visit.entry?, Contact.visit]
    rw [ensured]
    rfl
  simp [silent, entry]

theorem steps_work (h : (c : ApplierCall) → σ → Delivery (Except Error c.Result) × σ)
    (limit : Option Duration) (p : Plan) (step : Step) :
    Steps h limit p step [] (work callers p step).run := by
  cases step with
  | rbac => exact steps_single rfl (fun r => ⟨r, rfl, rfl⟩) fun _ => rfl
  | operator => exact steps_single rfl (fun r => ⟨r, rfl, rfl⟩) fun _ => rfl
  | broker => exact steps_single rfl (fun r => ⟨r, rfl, rfl⟩) fun _ => rfl
  | globalnet => exact steps_globalnet

theorem run_runStep_close {work : Action ApplierCalls Error Outcome} {t : σ × List Contact} :
    (runStep limit step work false).run (attending h) t =
      step.close ((bounded limit work.run .zero false).run (attending h) t) := by
  simp only [runStep, Bool.false_eq_true, if_false]
  rw [run_bind]
  rcases (bounded limit work.run .zero false).run (attending h) t with
    ⟨_ | ⟨result | _ | l, cancelled⟩, t'⟩
  all_goals rfl

/-- A step that is begun ends as its calls say. -/
theorem run_runStep_stepped (h : (c : ApplierCall) → σ → Delivery (Except Error c.Result) × σ)
    (limit : Option Duration) (p : Plan) (step : Step) (s : σ) (log : List Contact) :
    ∃ made result cancelled s', Stepped limit p step made result ∧
      (runStep limit step (work callers p step) false).run (attending h) (s, log) =
        (result.map (·, cancelled), s', log ++ made) ∧
      ∀ outcome, result = some (.ok outcome) → cancelled = made.any Contact.cancels := by
  rw [run_runStep_close]
  exact steps_work h limit p step s log

end MultiCluster.Deploy
