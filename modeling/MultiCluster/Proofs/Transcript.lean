import MultiCluster.Gather.Collection
import MultiCluster.Proofs.Surroundings
import MultiCluster.Proofs.Writing

/-! What happens in the course of gathering, as a list: what was asked and answered, which files were
written, and what was reported. A program and the answers that it gets settle what happens. -/
namespace MultiCluster.Gather

open Files (Saving Problem Tree Location)

inductive Happening where
  | asked (q : Question) (a : Source.Answer q)
  | saved (s : Saving)
  /-- A file that could not be written. -/
  | refused (s : Saving) (p : Problem)
  | told (e : Event)

inductive Reading where
  | pods (result : Except Error (List Pod))
  | log (result : Except Error String)
  | objects (result : Except Error (List Json))

def readingOf : (q : Question) → Source.Answer q → Reading
  | .pods _ _, a => .pods a
  | .log _ _ _, a => .log a
  | .objects _ _, a => .objects a

def Happening.reading? : Happening → Option Reading
  | .asked q a => some (readingOf q a)
  | _ => none

def Happening.saving? : Happening → Option Saving
  | .saved s => some s
  | _ => none

def readings (happened : List Happening) : List Reading := happened.filterMap Happening.reading?

def Written (happened : List Happening) : Prop := ∀ s p, .refused s p ∉ happened

def Happening.isRefused : Happening → Bool
  | .refused _ _ => true
  | _ => false

instance (happened : List Happening) : Decidable (Written happened) :=
  decidable_of_iff (∀ x ∈ happened, x.isRefused = false)
    ⟨fun none s p member => absurd (none _ member) nofun, fun written x member => by
      cases x with
      | refused s p => exact absurd member (written s p)
      | _ => rfl⟩

def happening : (r : Requests.Request) → Requests.Answer r → Happening
  | .inl (.inl q), a => .asked q a
  | .inl (.inr s), (.ok () : Except Problem Unit) => .saved s
  | .inl (.inr s), (.error p : Except Problem Unit) => .refused s p
  | .inr e, _ => .told e

structure World (σ : Type) where
  source : σ
  files : Tree
  happened : List Happening

def goal (tree : Tree) (s : Saving) : Location := Files.step (tree.place s.directory) s.name

def lastSaved? (tree : Tree) (l : Location) (happened : List Happening) : Option Saving :=
  (happened.filterMap Happening.saving?).reverse.find? fun s => goal tree s == l

/-- In every place to which files were written there is the last one of them; elsewhere nothing has
changed but that directories were made. -/
structure Left (happened : List Happening) (tree tree' : Tree) : Prop where
  current : tree'.current = tree.current
  holds : ∀ l s, lastSaved? tree l happened = some s → tree'.entry? l = some (.file (some s.text))
  others : ∀ l, lastSaved? tree l happened = none → tree'.entry? l = tree.entry? l ∨
    (tree.entry? l = none ∧ tree'.entry? l = some .directory)

section

variable {α β ε σ : Type} {p : Program Requests α} {t t' happened : List Happening} {a b : α}
  {w w' : World σ}

def watching (source : (q : Question) → σ → Source.Answer q × σ) :
    Program.Handler Requests (World σ)
  | .inl (.inl q), w =>
    let (a, s) := source q w.source
    (some a, { w with source := s, happened := w.happened ++ [.asked q a] })
  | .inl (.inr s), w =>
    let (result, files) := w.files.write s.directory s.name s.text
    (some result, { w with
      files := files, happened := w.happened ++ [happening (.inl (.inr s)) result] })
  | .inr e, w => (some (), { w with happened := w.happened ++ [.told e] })

def Goes : Program Requests α → List Happening → α → Prop
  | .done b, t, a => t = [] ∧ a = b
  | .never, _, _ => False
  | .ask r next, t, a => ∃ x rest, t = happening r x :: rest ∧
      (∀ s p, happening r x ≠ .refused s p) ∧ Goes (next x) rest a

/-- What a program does is settled by what it is answered. -/
theorem goes_determined (first : Goes p t a) (second : Goes p t' b)
    (same : readings t = readings t') : t = t' ∧ a = b := by
  induction p generalizing t t' with
  | done c =>
    obtain ⟨rfl, rfl⟩ := first
    obtain ⟨rfl, rfl⟩ := second
    exact ⟨rfl, rfl⟩
  | never => exact first.elim
  | ask r next ih =>
    obtain ⟨x, rest, rfl, written, goes⟩ := first
    obtain ⟨y, rest', rfl, written', goes'⟩ := second
    have answer : x = y ∧ readings rest = readings rest' := by
      rcases r with (q | s) | e
      · have parts : readingOf q x :: readings rest = readingOf q y :: readings rest' := same
        obtain ⟨head, tail⟩ := List.cons.inj parts
        refine ⟨?_, tail⟩
        cases q with
        | pods ns selector => exact Reading.pods.inj head
        | log ns pod container => exact Reading.log.inj head
        | objects ns k => exact Reading.objects.inj head
      · change Except Problem Unit at x y
        cases x with
        | error p => exact absurd rfl (written s p)
        | ok _ =>
          cases y with
          | error p => exact absurd rfl (written' s p)
          | ok _ => exact ⟨rfl, same⟩
      · exact ⟨rfl, same⟩
    obtain ⟨rfl, later⟩ := answer
    obtain ⟨rfl, rfl⟩ := ih x goes goes' later
    exact ⟨rfl, rfl⟩

theorem goes_bind {f : α → Program Requests β} {c : β} : Goes (p.bind f) t c ↔
    ∃ t₁ t₂ a, t = t₁ ++ t₂ ∧ Goes p t₁ a ∧ Goes (f a) t₂ c := by
  induction p generalizing t with
  | done a =>
    constructor
    · exact fun goes => ⟨[], t, a, rfl, ⟨rfl, rfl⟩, goes⟩
    · rintro ⟨_, t₂, _, rfl, ⟨rfl, rfl⟩, goes⟩
      exact goes
  | never =>
    constructor
    · exact False.elim
    · rintro ⟨_, _, _, -, stuck, -⟩
      exact stuck
  | ask r next ih =>
    constructor
    · rintro ⟨x, rest, rfl, written, goes⟩
      obtain ⟨t₁, t₂, a, rfl, here, later⟩ := (ih x).mp goes
      exact ⟨happening r x :: t₁, t₂, a, rfl, ⟨x, t₁, rfl, written, here⟩, later⟩
    · rintro ⟨_, t₂, a, rfl, ⟨x, rest, rfl, written, here⟩, later⟩
      exact ⟨x, rest ++ t₂, rfl, written, (ih x).mpr ⟨rest, t₂, a, rfl, here, later⟩⟩

theorem goes_action_bind {x : Action Requests ε α} {f : α → Action Requests ε β}
    {result : Except ε β} : Goes (x >>= f).run t result ↔
      (∃ e, Goes x.run t (.error e) ∧ result = .error e) ∨
      ∃ t₁ t₂ a, t = t₁ ++ t₂ ∧ Goes x.run t₁ (.ok a) ∧ Goes (f a).run t₂ result := by
  rw [ExceptT.run_bind]
  refine goes_bind.trans ?_
  constructor
  · rintro ⟨t₁, t₂, result', rfl, first, second⟩
    cases result' with
    | ok a => exact .inr ⟨t₁, t₂, a, rfl, first, second⟩
    | error e =>
      obtain ⟨rfl, rfl⟩ := second
      exact .inl ⟨e, by rwa [List.append_nil], rfl⟩
  · rintro (⟨e, first, rfl⟩ | ⟨t₁, t₂, a, rfl, first, second⟩)
    · exact ⟨t, [], .error e, (List.append_nil t).symm, first, rfl, rfl⟩
    · exact ⟨t₁, t₂, .ok a, rfl, first, second⟩

theorem goal_of_current {tree tree' : Tree} (same : tree'.current = tree.current) :
    goal tree' = goal tree := by
  funext s
  rw [goal, goal, Tree.place, Tree.place, Tree.start, Tree.start, same]

theorem left_cons_of_ne {x : Happening} {tree tree' : Tree} (left : Left t tree tree')
    (other : x.saving? = none) : Left (x :: t) tree tree' := by
  have same (l : Location) : lastSaved? tree l (x :: t) = lastSaved? tree l t := by
    rw [lastSaved?, lastSaved?, List.filterMap_cons_none other]
  exact ⟨left.current, fun l s last => left.holds l s (same l ▸ last),
    fun l none => left.others l (same l ▸ none)⟩

theorem lastSaved?_cons {s : Saving} {tree : Tree} {l : Location} :
    lastSaved? tree l (.saved s :: t) =
      (lastSaved? tree l t).or (if goal tree s = l then some s else none) := by
  have head : (Happening.saved s :: t).filterMap Happening.saving? =
      s :: t.filterMap Happening.saving? := rfl
  rw [lastSaved?, lastSaved?, head, List.reverse_cons, List.find?_append]
  by_cases here : goal tree s = l <;> simp [here]

/-- What was written first stays unless it is written over. -/
theorem left_cons_saved {s : Saving} {tree tree₁ tree' : Tree}
    (wrote : tree.write s.directory s.name s.text = (.ok (), tree₁)) (left : Left t tree₁ tree') :
    Left (.saved s :: t) tree tree' := by
  have writes := Tree.write_writes tree s.directory s.name s.text
  rw [wrote] at writes
  have there : tree₁.entry? (goal tree s) = some (.file (some s.text)) := Tree.entryAt_write wrote
  have same (l : Location) : lastSaved? tree₁ l t = lastSaved? tree l t := by
    rw [lastSaved?, lastSaved?, goal_of_current writes.current]
  refine ⟨left.current.trans writes.current, fun l r last => ?_, fun l none => ?_⟩
  · rw [lastSaved?_cons, ← same l] at last
    cases later : lastSaved? tree₁ l t with
    | some r' =>
      rw [later] at last
      obtain rfl : r' = r := Option.some.inj last
      exact left.holds l r' later
    | none =>
      rw [later, Option.none_or, Option.ite_none_right_eq_some] at last
      obtain ⟨rfl, ⟨⟩⟩ := last
      rcases left.others _ later with kept | ⟨missing, -⟩
      · exact kept.trans there
      · exact absurd (missing.symm.trans there) nofun
  · rw [lastSaved?_cons, ← same l, Option.or_eq_none_iff] at none
    obtain ⟨later, elsewhere⟩ := none
    have apart : l ≠ goal tree s := fun here => by simp [here] at elsewhere
    have first : tree₁.entry? l = tree.entry? l ∨
        (tree.entry? l = .none ∧ tree₁.entry? l = some .directory) := by
      by_cases unchanged : tree₁.entry? l = tree.entry? l
      · exact .inl unchanged
      · exact .inr ((writes.changed l unchanged).resolve_right fun file => apart file.1)
    rcases left.others l later with kept | ⟨missing, made⟩
    · rwa [kept]
    · rcases first with kept | ⟨-, made'⟩
      · exact .inr ⟨kept ▸ missing, made⟩
      · exact absurd (missing.symm.trans made') nofun

theorem left_cons_save {s : Saving} {tree tree₁ tree' : Tree} {result : Except Problem Unit}
    (wrote : tree.write s.directory s.name s.text = (result, tree₁))
    (written : ∀ s' p, happening (.inl (.inr s)) result ≠ .refused s' p)
    (left : Left t tree₁ tree') : Left (happening (.inl (.inr s)) result :: t) tree tree' := by
  cases result with
  | ok _ => exact left_cons_saved wrote left
  | error p => exact absurd rfl (written s p)

/-- A run leaves behind what happened in it. If files could be written, this is how the program
goes, and these are the files that are left. -/
theorem goes_of_run {source : (q : Question) → σ → Source.Answer q × σ}
    (ran : p.run (watching source) w = (some a, w')) :
    ∃ t, w'.happened = w.happened ++ t ∧ (Written t → Goes p t a ∧ Left t w.files w'.files) := by
  induction p generalizing w with
  | done b =>
    obtain ⟨same, rfl⟩ := Prod.mk.inj ran
    exact ⟨[], (List.append_nil _).symm, fun _ => ⟨⟨rfl, (Option.some.inj same).symm⟩,
      rfl, nofun, fun _ _ => .inl rfl⟩⟩
  | never => simp [Program.run] at ran
  | ask r next ih =>
    have step : ∃ x w₁, watching source r w = (some x, w₁) ∧
        w₁.happened = w.happened ++ [happening r x] ∧
        ((∀ s p, happening r x ≠ .refused s p) → ∀ t tree, Left t w₁.files tree →
          Left (happening r x :: t) w.files tree) := by
      rcases r with (q | s) | e
      · exact ⟨_, _, rfl, rfl, fun _ t tree left => left_cons_of_ne left rfl⟩
      · exact ⟨_, _, rfl, rfl, fun written t tree left => left_cons_save rfl written left⟩
      · exact ⟨_, _, rfl, rfl, fun _ t tree left => left_cons_of_ne left rfl⟩
    obtain ⟨x, w₁, answered, grown, leaves⟩ := step
    rw [Program.run_ask answered] at ran
    obtain ⟨t, later, goes⟩ := ih x ran
    refine ⟨happening r x :: t, ?_, fun written => ?_⟩
    · rw [later, grown, List.append_assoc]
      rfl
    · have head : ∀ s p, happening r x ≠ .refused s p :=
        fun s p same => written s p (same ▸ List.mem_cons_self)
      obtain ⟨rest, left⟩ := goes fun s p member => written s p (List.mem_cons_of_mem _ member)
      exact ⟨⟨x, t, rfl, head, rest⟩, leaves head t _ left⟩

end

/-! ### Programs that come to an end -/

section

variable {α β ε : Type} {p : Program Requests α}

def Ends : Program Requests α → Prop
  | .done _ => True
  | .never => False
  | .ask _ next => ∀ x, Ends (next x)

theorem Ends.bind {f : α → Program Requests β} (first : Ends p) (second : ∀ a, Ends (f a)) :
    Ends (p.bind f) := by
  induction p with
  | done a => exact second a
  | never => exact first.elim
  | ask r next ih => exact fun x => ih x (first x)

theorem ends_action_bind {x : Action Requests ε α} {f : α → Action Requests ε β}
    (first : Ends x.run) (second : ∀ a, Ends (f a).run) : Ends (x >>= f).run := by
  rw [ExceptT.run_bind]
  refine Ends.bind first fun result => ?_
  cases result with
  | ok a => exact second a
  | error e => trivial

theorem Ends.run {σ : Type} (ends : Ends p) (source : (q : Question) → σ → Source.Answer q × σ)
    (w : World σ) : ∃ a w', p.run (watching source) w = (some a, w') := by
  induction p generalizing w with
  | done a => exact ⟨a, w, rfl⟩
  | never => exact ends.elim
  | ask r next ih =>
    have step : ∃ x w₁, watching source r w = (some x, w₁) := by
      rcases r with (q | s) | e
      · exact ⟨_, _, rfl⟩
      · exact ⟨_, _, rfl⟩
      · exact ⟨_, _, rfl⟩
    obtain ⟨x, w₁, answered⟩ := step
    rw [Program.run_ask answered]
    exact ih x (ends x) w₁

end

end MultiCluster.Gather
