/-
Finite runs of a deterministic event machine whose steps may be refused.  A
run collects the output of every step, so that an output can be related to the
events that came before it.
-/
import Mathlib.Data.List.Induction

namespace SafeTimer

universe u v w x y z u' v' w' x'

variable {R : Type u} {S : Type v} {E : Type w} {O : Type x}

/-- Feed the events one after the other.  A refused step ends the run with its
refusal; otherwise the outputs are returned in the order of the events. -/
def runEvents (step : S → E → Except R (S × O)) :
    S → List E → Except R (S × List O)
  | state, [] => .ok (state, [])
  | state, event :: rest =>
      match step state event with
      | .error refusal => .error refusal
      | .ok (next, output) =>
          match runEvents step next rest with
          | .error refusal => .error refusal
          | .ok (final, outputs) => .ok (final, output :: outputs)

/-- A run succeeds on a nonempty list exactly when its first step does and the
rest of the run succeeds from there. -/
theorem runEvents_cons_eq_ok_iff {step : S → E → Except R (S × O)}
    {state final : S} {event : E} {rest : List E} {outputs : List O} :
    runEvents step state (event :: rest) = .ok (final, outputs) ↔
      ∃ next output tail, step state event = .ok (next, output) ∧
        runEvents step next rest = .ok (final, tail) ∧
        outputs = output :: tail := by
  simp only [runEvents]
  constructor
  · intro hrun
    split at hrun
    · cases hrun
    · rename_i next output hstep
      split at hrun
      · cases hrun
      · rename_i last tail hrest
        cases hrun
        exact ⟨next, output, tail, hstep, hrest, rfl⟩
  · rintro ⟨next, output, tail, hstep, hrest, rfl⟩
    simp only [hstep, hrest]

/-- A first step that succeeds puts its output before those of the rest of the run. -/
theorem runEvents_cons_of_step {step : S → E → Except R (S × O)} {state next : S} {event : E}
    {output : O} (hstep : step state event = .ok (next, output)) (rest : List E) :
    runEvents step state (event :: rest) =
      (runEvents step next rest).map fun result => (result.1, output :: result.2) := by
  simp only [runEvents, hstep]
  cases runEvents step next rest <;> rfl

theorem runEvents_outputs_length {step : S → E → Except R (S × O)}
    {state final : S} {events : List E} {outputs : List O}
    (hrun : runEvents step state events = .ok (final, outputs)) :
    outputs.length = events.length := by
  induction events generalizing state outputs with
  | nil =>
      cases hrun
      rfl
  | cons event rest ih =>
      obtain ⟨next, output, tail, _, hrest, rfl⟩ := runEvents_cons_eq_ok_iff.mp hrun
      simp [ih hrest]

/-- Steps that are never refused make runs that are never refused. -/
theorem exists_run_of_total (step : S → E → Except R (S × O))
    (htotal : ∀ state event, ∃ result, step state event = .ok result) (state : S)
    (events : List E) : ∃ final outputs, runEvents step state events = .ok (final, outputs) := by
  induction events generalizing state with
  | nil => exact ⟨state, [], rfl⟩
  | cons event rest ih =>
      obtain ⟨⟨next, output⟩, hstep⟩ := htotal state event
      obtain ⟨final, outputs, hrest⟩ := ih next
      exact ⟨final, output :: outputs,
        runEvents_cons_eq_ok_iff.mpr ⟨next, output, outputs, hstep, hrest, rfl⟩⟩

/-- A run that is known by a part of its result. -/
theorem exists_ok_of_map_eq {α : Type y} {β : Type z} {run : Except R α} {part : α → β}
    {value : β} (hrun : run.map part = .ok value) :
    ∃ result, run = .ok result ∧ part result = value := by
  cases run with
  | error refusal => cases hrun
  | ok result =>
      cases hrun
      exact ⟨result, rfl, rfl⟩

/-- A run that is known by its outputs alone. -/
theorem exists_run_of_outputs {run : Except R (S × List O)} {outputs : List O}
    (hrun : run.map Prod.snd = .ok outputs) : ∃ final, run = .ok (final, outputs) := by
  obtain ⟨⟨final, outputs'⟩, hok, rfl⟩ := exists_ok_of_map_eq hrun
  exact ⟨final, hok⟩

/-- Split a successful run after its first part. -/
theorem runEvents_append_eq_ok_iff {step : S → E → Except R (S × O)}
    {state final : S} {first second : List E} {outputs : List O} :
    runEvents step state (first ++ second) = .ok (final, outputs) ↔
      ∃ middle early late, runEvents step state first = .ok (middle, early) ∧
        runEvents step middle second = .ok (final, late) ∧
        outputs = early ++ late := by
  induction first generalizing state outputs with
  | nil =>
      constructor
      · intro hrun
        exact ⟨state, [], outputs, rfl, hrun, rfl⟩
      · rintro ⟨middle, early, late, hfirst, hsecond, rfl⟩
        cases hfirst
        exact hsecond
  | cons event rest ih =>
      rw [List.cons_append, runEvents_cons_eq_ok_iff]
      constructor
      · rintro ⟨next, output, tail, hstep, hrest, rfl⟩
        obtain ⟨middle, early, late, hfirst, hsecond, rfl⟩ := ih.mp hrest
        exact ⟨middle, output :: early, late,
          runEvents_cons_eq_ok_iff.mpr ⟨next, output, early, hstep, hfirst, rfl⟩,
          hsecond, rfl⟩
      · rintro ⟨middle, early, late, hfirst, hsecond, rfl⟩
        obtain ⟨next, output, tail, hstep, hrest, rfl⟩ :=
          runEvents_cons_eq_ok_iff.mp hfirst
        exact ⟨next, output, tail ++ late, hstep,
          ih.mpr ⟨middle, tail, late, hrest, hsecond, rfl⟩, rfl⟩

/-- Expose the last step of a successful run. -/
theorem runEvents_concat_eq_ok_iff {step : S → E → Except R (S × O)}
    {state final : S} {events : List E} {event : E} {outputs : List O} :
    runEvents step state (events ++ [event]) = .ok (final, outputs) ↔
      ∃ middle early output, runEvents step state events = .ok (middle, early) ∧
        step middle event = .ok (final, output) ∧
        outputs = early ++ [output] := by
  rw [runEvents_append_eq_ok_iff]
  constructor
  · rintro ⟨middle, early, late, hfirst, hlast, rfl⟩
    obtain ⟨next, output, tail, hstep, hnil, rfl⟩ :=
      runEvents_cons_eq_ok_iff.mp hlast
    cases hnil
    exact ⟨middle, early, output, hfirst, hstep, rfl⟩
  · rintro ⟨middle, early, output, hfirst, hstep, rfl⟩
    exact ⟨middle, early, [output], hfirst,
      runEvents_cons_eq_ok_iff.mpr ⟨final, output, [], hstep, rfl, rfl⟩, rfl⟩

/-- The step of a successful run behind one of its first parts. -/
theorem runEvents_step_of_split {step : S → E → Except R (S × O)} {init state final : S}
    {pre post : List E} {event : E} {early outputs : List O}
    (hrun : runEvents step init (pre ++ event :: post) = .ok (final, outputs))
    (hpre : runEvents step init pre = .ok (state, early)) :
    ∃ next output tail, step state event = .ok (next, output) ∧
      outputs = early ++ output :: tail := by
  obtain ⟨middle, _, _, hpre', hrest, rfl⟩ := runEvents_append_eq_ok_iff.mp hrun
  obtain ⟨rfl, rfl⟩ := Prod.mk.inj (Except.ok.inj (hpre.symm.trans hpre'))
  obtain ⟨next, output, tail, hstep, _, rfl⟩ := runEvents_cons_eq_ok_iff.mp hrest
  exact ⟨next, output, tail, hstep, rfl⟩

/-- Every output of a successful run is that of one of its steps. -/
theorem exists_step_of_mem_outputs {step : S → E → Except R (S × O)} {init final : S}
    {events : List E} {outputs : List O} {output : O}
    (hrun : runEvents step init events = .ok (final, outputs)) (hmem : output ∈ outputs) :
    ∃ pre event post state early next, events = pre ++ event :: post ∧
      runEvents step init pre = .ok (state, early) ∧ step state event = .ok (next, output) := by
  induction events using List.reverseRecOn generalizing final outputs with
  | nil =>
      cases hrun
      cases hmem
  | append_singleton pre event ih =>
      obtain ⟨state, early, last, hpre, hstep, rfl⟩ := runEvents_concat_eq_ok_iff.mp hrun
      rcases List.mem_append.mp hmem with hearly | hlast
      · obtain ⟨pre', event', post, state', early', next, rfl, hpre', hstep'⟩ := ih hpre hearly
        exact ⟨pre', event', post ++ [event], state', early', next, by simp, hpre', hstep'⟩
      · rw [List.mem_singleton.mp hlast]
        exact ⟨pre, event, [], state, early, final, rfl, hpre, hstep⟩

/-- The event occurs in the list right behind the events of `pre`. -/
def Occurs (events pre : List E) (event : E) : Prop :=
  ∃ post, events = pre ++ event :: post

theorem Occurs.mem {events pre : List E} {event : E}
    (hoccurs : Occurs events pre event) : event ∈ events := by
  obtain ⟨post, rfl⟩ := hoccurs
  simp

theorem Occurs.mem_of_mem_concat {events pre : List E} {event event' : E}
    (hoccurs : Occurs events pre event) (hmem : event' ∈ pre ++ [event]) :
    event' ∈ events := by
  obtain ⟨post, rfl⟩ := hoccurs
  rw [← List.singleton_append, ← List.append_assoc]
  exact List.mem_append_left _ hmem

theorem exists_occurs_of_mem {events : List E} {event : E} (hmem : event ∈ events) :
    ∃ pre, Occurs events pre event := by
  obtain ⟨pre, post, hsplit⟩ := List.append_of_mem hmem
  exact ⟨pre, post, hsplit⟩

theorem Occurs.append {events pre : List E} {event : E}
    (hoccurs : Occurs events pre event) (more : List E) :
    Occurs (events ++ more) pre event := by
  obtain ⟨post, rfl⟩ := hoccurs
  exact ⟨post ++ more, by simp⟩

/-- An occurrence before an occurrence is one of the whole list. -/
theorem Occurs.trans {events pre pre' : List E} {event event' : E}
    (hoccurs : Occurs events pre event) (hbefore : Occurs pre pre' event') :
    Occurs events pre' event' := by
  obtain ⟨post, rfl⟩ := hoccurs
  exact hbefore.append (event :: post)

theorem occurs_concat_iff {events pre : List E} {last event : E} :
    Occurs (events ++ [last]) pre event ↔
      (pre = events ∧ event = last) ∨ Occurs events pre event := by
  constructor
  · rintro ⟨post, hsplit⟩
    rcases List.eq_nil_or_concat post with rfl | ⟨rest, final, rfl⟩
    · have hends := List.append_inj' hsplit rfl
      exact Or.inl ⟨hends.1.symm, (List.singleton_inj.mp hends.2).symm⟩
    · rw [List.concat_eq_append, ← List.cons_append, ← List.append_assoc] at hsplit
      exact Or.inr ⟨rest, (List.append_inj' hsplit rfl).1⟩
  · rintro (⟨rfl, rfl⟩ | hoccurs)
    · exact ⟨[], rfl⟩
    · exact hoccurs.append [last]

/-- Two occurrences in one list coincide, or one of them lies before the other. -/
theorem Occurs.trichotomy {events pre pre' : List E} {event event' : E}
    (hfirst : Occurs events pre event) (hsecond : Occurs events pre' event') :
    (pre = pre' ∧ event = event') ∨ Occurs pre' pre event ∨ Occurs pre pre' event' := by
  obtain ⟨post, hpost⟩ := hfirst
  obtain ⟨post', hpost'⟩ := hsecond
  rw [hpost] at hpost'
  rcases List.append_eq_append_iff.mp hpost' with ⟨gap, hpre, hgap⟩ | ⟨gap, hpre, hgap⟩
  · cases gap with
    | nil =>
        simp only [List.append_nil] at hpre
        simp only [List.nil_append, List.cons.injEq] at hgap
        exact Or.inl ⟨hpre.symm, hgap.1⟩
    | cons head tail =>
        simp only [List.cons_append, List.cons.injEq] at hgap
        exact Or.inr (Or.inl ⟨tail, by rw [hpre, hgap.1]⟩)
  · cases gap with
    | nil =>
        simp only [List.append_nil] at hpre
        simp only [List.nil_append, List.cons.injEq] at hgap
        exact Or.inl ⟨hpre, hgap.1.symm⟩
    | cons head tail =>
        simp only [List.cons_append, List.cons.injEq] at hgap
        exact Or.inr (Or.inr ⟨tail, by rw [hpre, hgap.1]⟩)

/-- Every step of the run finds `cond` met.  The condition sees the events
before the step, the state before it and the event itself. -/
def EveryStep (step : S → E → Except R (S × O))
    (cond : List E → S → E → Prop) (init : S) (events : List E) : Prop :=
  ∀ pre event post state outputs, events = pre ++ event :: post →
    runEvents step init pre = .ok (state, outputs) → cond pre state event

theorem EveryStep.of_append {step : S → E → Except R (S × O)}
    {cond : List E → S → E → Prop} {init : S} {first second : List E}
    (hevery : EveryStep step cond init (first ++ second)) :
    EveryStep step cond init first := by
  intro pre event post state outputs hsplit hrun
  exact hevery pre event (post ++ second) state outputs
    (by simp [hsplit]) hrun

theorem everyStep_nil {step : S → E → Except R (S × O)} {cond : List E → S → E → Prop}
    {init : S} : EveryStep step cond init [] := by
  intro pre event post _ _ hsplit
  exact absurd hsplit.symm (by simp)

/-- The first step finds its condition met, and so do the others from where it leads. -/
theorem everyStep_cons_iff {step : S → E → Except R (S × O)} {cond : List E → S → E → Prop}
    {init : S} {event : E} {rest : List E} :
    EveryStep step cond init (event :: rest) ↔ cond [] init event ∧
      ∀ next output, step init event = .ok (next, output) →
        EveryStep step (fun pre => cond (event :: pre)) next rest := by
  constructor
  · intro hevery
    refine ⟨hevery [] event rest init [] rfl rfl, ?_⟩
    intro next output hstep pre later post state outputs hsplit hrun
    refine hevery (event :: pre) later post state (output :: outputs) (by simp [hsplit]) ?_
    exact runEvents_cons_eq_ok_iff.mpr ⟨next, output, outputs, hstep, hrun, rfl⟩
  · rintro ⟨hfirst, hrest⟩ pre later post state outputs hsplit hrun
    cases pre with
    | nil =>
        cases hrun
        cases hsplit
        exact hfirst
    | cons head tail =>
        rw [List.cons_append, List.cons.injEq] at hsplit
        obtain ⟨rfl, htail⟩ := hsplit
        obtain ⟨next, output, late, hstep, hlate, rfl⟩ := runEvents_cons_eq_ok_iff.mp hrun
        exact hrest next output hstep tail later post state late htail hlate

/-- Run the events and test the condition at every step. -/
def checkSteps (step : S → E → Except R (S × O)) (cond : S → E → Prop)
    [∀ state event, Decidable (cond state event)] : S → List E → Bool
  | _, [] => true
  | state, event :: rest =>
      decide (cond state event) &&
        match step state event with
        | .error _ => true
        | .ok (next, _) => checkSteps step cond next rest

theorem everyStep_iff_checkSteps {step : S → E → Except R (S × O)} {cond : S → E → Prop}
    [∀ state event, Decidable (cond state event)] {init : S} {events : List E} :
    EveryStep step (fun _ => cond) init events ↔ checkSteps step cond init events = true := by
  induction events generalizing init with
  | nil => exact ⟨fun _ => rfl, fun _ => everyStep_nil⟩
  | cons first rest ih =>
      rw [everyStep_cons_iff, checkSteps, Bool.and_eq_true, decide_eq_true_eq]
      apply and_congr_right
      intro _
      cases hstep : step init first with
      | error refusal => simp
      | ok result =>
          obtain ⟨next, output⟩ := result
          simp [← ih]

/-- The same test for a condition that looks back: `pre` has been run before. -/
def checkStepsFrom (step : S → E → Except R (S × O)) (cond : List E → S → E → Prop)
    [∀ pre state event, Decidable (cond pre state event)] : List E → S → List E → Bool
  | _, _, [] => true
  | pre, state, event :: rest =>
      decide (cond pre state event) &&
        match step state event with
        | .error _ => true
        | .ok (next, _) => checkStepsFrom step cond (pre ++ [event]) next rest

theorem everyStep_of_checkStepsFrom {step : S → E → Except R (S × O)}
    {cond : List E → S → E → Prop} [∀ pre state event, Decidable (cond pre state event)]
    {init : S} {events : List E} (hcheck : checkStepsFrom step cond [] init events = true) :
    EveryStep step cond init events := by
  have hfrom : ∀ before state, checkStepsFrom step cond before state events = true →
      EveryStep step (fun pre => cond (before ++ pre)) state events := by
    clear hcheck
    induction events with
    | nil => exact fun _ _ _ => everyStep_nil
    | cons first rest ih =>
        intro before state hcheck
        rw [checkStepsFrom, Bool.and_eq_true, decide_eq_true_eq] at hcheck
        refine everyStep_cons_iff.mpr ⟨by simpa using hcheck.1, ?_⟩
        intro next output hstep
        rw [hstep] at hcheck
        simpa using ih (before ++ [first]) next hcheck.2
  exact hfrom [] init hcheck

/-- The induction behind every safety result: what holds at the start and is
kept by each step that meets its condition holds after every run whose steps
all meet theirs. -/
theorem EveryStep.invariant {step : S → E → Except R (S × O)}
    {cond : List E → S → E → Prop} {init : S} {events : List E}
    (hevery : EveryStep step cond init events)
    (inv : List E → S → List O → Prop) (hinit : inv [] init [])
    (hstep : ∀ pre state outputs event next output,
      runEvents step init pre = .ok (state, outputs) →
      inv pre state outputs → cond pre state event →
      step state event = .ok (next, output) →
      inv (pre ++ [event]) next (outputs ++ [output]))
    {final : S} {outputs : List O}
    (hrun : runEvents step init events = .ok (final, outputs)) :
    inv events final outputs := by
  induction events using List.reverseRecOn generalizing final outputs with
  | nil =>
      cases hrun
      exact hinit
  | append_singleton pre event ih =>
      obtain ⟨middle, early, output, hpre, hlast, rfl⟩ :=
        runEvents_concat_eq_ok_iff.mp hrun
      have hcond : cond pre middle event :=
        hevery pre event [] middle early rfl hpre
      exact hstep pre middle early event final output hpre
        (ih hevery.of_append hpre) hcond hlast

/-- The same rule for an invariant that every step keeps. -/
theorem runEvents_invariant {step : S → E → Except R (S × O)} {init : S}
    (inv : List E → S → List O → Prop) (hinit : inv [] init [])
    (hstep : ∀ pre state outputs event next output,
      runEvents step init pre = .ok (state, outputs) →
      inv pre state outputs → step state event = .ok (next, output) →
      inv (pre ++ [event]) next (outputs ++ [output]))
    {events : List E} {final : S} {outputs : List O}
    (hrun : runEvents step init events = .ok (final, outputs)) :
    inv events final outputs := by
  have hevery : EveryStep step (fun _ _ _ => True) init events :=
    fun _ _ _ _ _ _ _ => trivial
  refine hevery.invariant inv hinit ?_ hrun
  intro pre state early event next output hpre hinv _ hlast
  exact hstep pre state early event next output hpre hinv hlast

/-- Forward simulation: each step of the first machine is a step of the second one on
the event that its output stands for, or none at all. -/
theorem EveryStep.simulation {R' : Type u'} {T : Type v'} {F : Type w'} {P : Type x'}
    {step : S → E → Except R (S × O)} {cond : List E → S → E → Prop} {init : S}
    {events : List E} (hevery : EveryStep step cond init events)
    {stepAbs : T → F → Except R' (T × P)} {initAbs : T} (label : O → Option F)
    (rel : List E → S → T → Prop) (hinit : rel [] init initAbs)
    (hstep : ∀ pre state abs event next output, rel pre state abs → cond pre state event →
      step state event = .ok (next, output) →
      (label output = none ∧ rel (pre ++ [event]) next abs) ∨
        ∃ eventAbs nextAbs outputAbs, label output = some eventAbs ∧
          stepAbs abs eventAbs = .ok (nextAbs, outputAbs) ∧ rel (pre ++ [event]) next nextAbs)
    {final : S} {outputs : List O}
    (hrun : runEvents step init events = .ok (final, outputs)) :
    ∃ finalAbs outputsAbs,
      runEvents stepAbs initAbs (outputs.filterMap label) = .ok (finalAbs, outputsAbs) ∧
        rel events final finalAbs := by
  refine hevery.invariant (fun pre state outputs => ∃ abs outputsAbs,
    runEvents stepAbs initAbs (outputs.filterMap label) = .ok (abs, outputsAbs) ∧
      rel pre state abs) ⟨initAbs, [], rfl, hinit⟩ ?_ hrun
  rintro pre state early event next output _ ⟨abs, outputsAbs, hrunAbs, hrel⟩ hcond hlast
  rcases hstep pre state abs event next output hrel hcond hlast with
    ⟨hlabel, hnext⟩ | ⟨eventAbs, nextAbs, outputAbs, hlabel, hstepAbs, hnext⟩
  · refine ⟨abs, outputsAbs, ?_, hnext⟩
    simpa [List.filterMap_append, hlabel] using hrunAbs
  · refine ⟨nextAbs, outputsAbs ++ [outputAbs], ?_, hnext⟩
    rw [List.filterMap_append, List.filterMap_cons, hlabel]
    exact runEvents_concat_eq_ok_iff.mpr ⟨abs, outputsAbs, outputAbs, hrunAbs, hstepAbs, rfl⟩

end SafeTimer
