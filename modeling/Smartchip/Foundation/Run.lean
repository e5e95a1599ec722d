import Mathlib.Data.List.Basic
import Mathlib.Logic.Relation

/-!
# Runs of a partial transition function

A component is a state type, a type of inputs and a transition function into
`Option`.  The outcome `none` stands for a step that never returns, so a run
exists only when every one of its steps returns.
-/

namespace Smartchip.Foundation

universe u v w

variable {State : Type u} {Input : Type v}

def run (step : State → Input → Option State) :
    State → List Input → Option State
  | state, [] => some state
  | state, input :: inputs => do
      let next ← step state input
      run step next inputs

@[simp] theorem run_nil (step : State → Input → Option State) (state : State) :
    run step state [] = some state := rfl

@[simp] theorem run_cons (step : State → Input → Option State) (state : State)
    (input : Input) (inputs : List Input) :
    run step state (input :: inputs) =
      (step state input).bind fun next => run step next inputs := rfl

theorem run_append (step : State → Input → Option State) (state : State)
    (inputs more : List Input) :
    run step state (inputs ++ more) =
      (run step state inputs).bind fun next => run step next more := by
  induction inputs generalizing state with
  | nil => rfl
  | cons input inputs ih => simp [ih, Option.bind_assoc]

theorem run_invariant {step : State → Input → Option State}
    (invariant : State → Prop) {inputs : List Input}
    (kept : ∀ state next, ∀ input ∈ inputs, invariant state →
      step state input = some next → invariant next)
    {state final : State} (initial : invariant state)
    (reached : run step state inputs = some final) : invariant final := by
  induction inputs generalizing state with
  | nil =>
      simp only [run_nil, Option.some.injEq] at reached
      exact reached ▸ initial
  | cons input inputs ih =>
      rw [run_cons, Option.bind_eq_some_iff] at reached
      obtain ⟨next, hstep, rest⟩ := reached
      refine ih ?_ (kept state next input (by simp) initial hstep) rest
      intro state' next' input' member
      exact kept state' next' input' (by simp [member])

theorem run_total {step : State → Input → Option State}
    (invariant : State → Prop) {inputs : List Input}
    (returns : ∀ state, ∀ input ∈ inputs, invariant state →
      ∃ next, step state input = some next ∧ invariant next)
    {state : State} (initial : invariant state) :
    ∃ final, run step state inputs = some final ∧ invariant final := by
  induction inputs generalizing state with
  | nil => exact ⟨state, rfl, initial⟩
  | cons input inputs ih =>
      obtain ⟨next, hstep, hnext⟩ := returns state input (by simp) initial
      obtain ⟨final, hrun, hfinal⟩ := ih
        (fun state' input' member => returns state' input' (by simp [member]))
        hnext
      exact ⟨final, by simp [hstep, hrun], hfinal⟩

/-! ## Properties of every state and of every step of a run -/

/-- Every step returns, and `good` holds in every state reached. -/
def Throughout (step : State → Input → Option State) (good : State → Prop) :
    State → List Input → Prop
  | state, [] => good state
  | state, input :: inputs => good state ∧
      ∃ next, step state input = some next ∧ Throughout step good next inputs

/-- Every input meets `allowed` in the state it is given to. -/
def EachStep (step : State → Input → Option State)
    (allowed : State → Input → Prop) : State → List Input → Prop
  | _, [] => True
  | state, input :: inputs => allowed state input ∧
      ∀ next, step state input = some next → EachStep step allowed next inputs

instance decidableEachStep (step : State → Input → Option State)
    (allowed : State → Input → Prop) [∀ state input, Decidable (allowed state input)] :
    ∀ (inputs : List Input) (state : State), Decidable (EachStep step allowed state inputs)
  | [], _ => isTrue trivial
  | input :: inputs, state =>
      match next : step state input with
      | none => decidable_of_iff (allowed state input) (by simp [EachStep, next])
      | some after =>
          have := decidableEachStep step allowed inputs after
          decidable_of_iff (allowed state input ∧ EachStep step allowed after inputs)
            (by simp [EachStep, next])

theorem Throughout.start {step : State → Input → Option State}
    {good : State → Prop} {state : State} {inputs : List Input}
    (throughout : Throughout step good state inputs) : good state := by
  cases inputs with
  | nil => exact throughout
  | cons input inputs => exact throughout.1

theorem Throughout.final {step : State → Input → Option State}
    {good : State → Prop} {state : State} {inputs : List Input}
    (throughout : Throughout step good state inputs) :
    ∃ final, run step state inputs = some final ∧ good final := by
  induction inputs generalizing state with
  | nil => exact ⟨state, rfl, throughout⟩
  | cons input inputs ih =>
      obtain ⟨-, next, hstep, rest⟩ := throughout
      obtain ⟨final, hrun, hfinal⟩ := ih rest
      exact ⟨final, by simp [hstep, hrun], hfinal⟩

/-- What is read off the last state of a good run is read off a good state. -/
theorem Throughout.observed {step : State → Input → Option State}
    {good : State → Prop} {state : State} {inputs : List Input} {Seen : Type w}
    {observe : State → Seen} {seen : Seen} (throughout : Throughout step good state inputs)
    (ends : (run step state inputs).map observe = some seen) :
    ∃ final, good final ∧ observe final = seen := by
  obtain ⟨final, reached, good⟩ := throughout.final
  exact ⟨final, good, by simpa [reached] using ends⟩

/-- An invariant that every step keeps makes every run a good one. -/
theorem throughout_of_kept {step : State → Input → Option State}
    {good : State → Prop} (invariant : State → Prop)
    (sound : ∀ state, invariant state → good state)
    (kept : ∀ state input, invariant state →
      ∃ next, step state input = some next ∧ invariant next)
    {state : State} (initial : invariant state) (inputs : List Input) :
    Throughout step good state inputs := by
  induction inputs generalizing state with
  | nil => exact sound state initial
  | cons input inputs ih =>
      obtain ⟨next, hstep, hnext⟩ := kept state input initial
      exact ⟨sound state initial, next, hstep, ih hnext⟩

/-- Allowed steps that keep an invariant have what the two give together. -/
theorem EachStep.imp {step : State → Input → Option State}
    {allowed lawful : State → Input → Prop} (invariant : State → Prop)
    (kept : ∀ state input next, invariant state → allowed state input →
      step state input = some next → invariant next)
    (gives : ∀ state input, invariant state → allowed state input → lawful state input)
    {state : State} {inputs : List Input} (initial : invariant state)
    (steps : EachStep step allowed state inputs) : EachStep step lawful state inputs := by
  induction inputs generalizing state with
  | nil => trivial
  | cons input inputs ih =>
      refine ⟨gives state input initial steps.1, ?_⟩
      intro next hstep
      exact ih (kept state input next initial steps.1 hstep) (steps.2 next hstep)

theorem eachStep_of_mem {step : State → Input → Option State}
    {allowed : State → Input → Prop} {state : State} {inputs : List Input}
    (holds : ∀ input ∈ inputs, ∀ state, allowed state input) :
    EachStep step allowed state inputs := by
  induction inputs generalizing state with
  | nil => trivial
  | cons input inputs ih =>
      refine ⟨holds input (by simp) state, ?_⟩
      intro next _
      exact ih fun input' member => holds input' (by simp [member])

/-- What holds of every input holds at every step. -/
theorem EachStep.and_mem {step : State → Input → Option State}
    {allowed : State → Input → Prop} {p : Input → Prop} {state : State} {inputs : List Input}
    (steps : EachStep step allowed state inputs) (all : ∀ input ∈ inputs, p input) :
    EachStep step (fun state input => allowed state input ∧ p input) state inputs := by
  induction inputs generalizing state with
  | nil => trivial
  | cons input inputs ih =>
      rw [List.forall_mem_cons] at all
      exact ⟨⟨steps.1, all.1⟩, fun next hstep => ih (steps.2 next hstep) all.2⟩

/-- What is allowed in a run is allowed in one that cannot be told from it. -/
theorem EachStep.of_alike {step : State → Input → Option State}
    {allowed : State → Input → Prop} {alike : State → State → Prop}
    (steps : ∀ state other input next, alike state other → step other input = some next →
      ∃ follows, step state input = some follows ∧ alike follows next)
    (same : ∀ state other input, alike state other → allowed state input →
      allowed other input)
    {state other : State} {inputs : List Input} (start : alike state other)
    (each : EachStep step allowed state inputs) : EachStep step allowed other inputs := by
  induction inputs generalizing state other with
  | nil => trivial
  | cons input inputs ih =>
      refine ⟨same state other input start each.1, fun next hstep => ?_⟩
      obtain ⟨follows, along, still⟩ := steps state other input next start hstep
      exact ih still (each.2 follows along)

/-- Allowed steps that keep an invariant make a run a good one. -/
theorem EachStep.throughout {step : State → Input → Option State}
    {allowed : State → Input → Prop} {good : State → Prop} (invariant : State → Prop)
    (sound : ∀ state, invariant state → good state)
    (kept : ∀ state input, invariant state → allowed state input →
      ∃ next, step state input = some next ∧ invariant next)
    {state : State} {inputs : List Input} (initial : invariant state)
    (steps : EachStep step allowed state inputs) : Throughout step good state inputs := by
  induction inputs generalizing state with
  | nil => exact sound state initial
  | cons input inputs ih =>
      obtain ⟨next, hstep, hnext⟩ := kept state input initial steps.1
      exact ⟨sound state initial, next, hstep, ih hnext (steps.2 next hstep)⟩

/-- A good run has at each step what leads from a good state to a good one. -/
theorem Throughout.eachStep {step : State → Input → Option State}
    {allowed : State → Input → Prop} {good : State → Prop} (invariant : State → Prop)
    (gives : ∀ state input next, invariant state → good state →
      step state input = some next → good next → allowed state input ∧ invariant next)
    {state : State} {inputs : List Input} (initial : invariant state)
    (throughout : Throughout step good state inputs) : EachStep step allowed state inputs := by
  induction inputs generalizing state with
  | nil => trivial
  | cons input inputs ih =>
      obtain ⟨here, next, hstep, rest⟩ := throughout
      obtain ⟨may, kept⟩ := gives state input next initial here hstep rest.start
      refine ⟨may, fun other hother => ?_⟩
      rw [hstep, Option.some.injEq] at hother
      exact hother ▸ ih kept rest

theorem EachStep.last {step : State → Input → Option State}
    {allowed : State → Input → Prop} {state final : State} {inputs : List Input}
    {input : Input} (steps : EachStep step allowed state (inputs ++ [input]))
    (reached : run step state inputs = some final) : allowed final input := by
  induction inputs generalizing state with
  | nil =>
      cases reached
      exact steps.1
  | cons first inputs ih =>
      rw [run_cons, Option.bind_eq_some_iff] at reached
      obtain ⟨next, hstep, rest⟩ := reached
      exact ih (steps.2 next hstep) rest

theorem EachStep.append {step : State → Input → Option State}
    {allowed : State → Input → Prop} {state next : State} {inputs more : List Input}
    (first : EachStep step allowed state inputs) (reached : run step state inputs = some next)
    (second : EachStep step allowed next more) :
    EachStep step allowed state (inputs ++ more) := by
  induction inputs generalizing state with
  | nil =>
      cases reached
      exact second
  | cons input inputs ih =>
      rw [run_cons, Option.bind_eq_some_iff] at reached
      obtain ⟨after, hstep, rest⟩ := reached
      refine ⟨first.1, fun other hother => ?_⟩
      rw [hstep, Option.some.injEq] at hother
      subst hother
      exact ih (first.2 after hstep) rest

/-- Two properties of steps that agree wherever a run can get. -/
theorem eachStep_congr {step : State → Input → Option State}
    {first second : State → Input → Prop} (invariant : State → Prop)
    (kept : ∀ state input next, invariant state → step state input = some next →
      invariant next)
    (same : ∀ state input, invariant state → (first state input ↔ second state input))
    {state : State} {inputs : List Input} (initial : invariant state) :
    EachStep step first state inputs ↔ EachStep step second state inputs := by
  constructor
  · exact EachStep.imp invariant (fun state input next ok _ => kept state input next ok)
      (fun state input ok => (same state input ok).1) initial
  · exact EachStep.imp invariant (fun state input next ok _ => kept state input next ok)
      (fun state input ok => (same state input ok).2) initial

/-- What the allowed inputs keep holds at the end of a run of allowed steps. -/
theorem eachStep_invariant {step : State → Input → Option State}
    {allowed : State → Input → Prop} (invariant : State → Prop)
    (kept : ∀ state input next, invariant state → allowed state input →
      step state input = some next → invariant next)
    {state final : State} {inputs : List Input} (initial : invariant state)
    (steps : EachStep step allowed state inputs)
    (reached : run step state inputs = some final) : invariant final := by
  induction inputs generalizing state with
  | nil =>
      cases reached
      exact initial
  | cons input inputs ih =>
      rw [run_cons, Option.bind_eq_some_iff] at reached
      obtain ⟨next, hstep, rest⟩ := reached
      exact ih (kept state input next initial steps.1 hstep) (steps.2 next hstep) rest

/--
While the allowed inputs keep the run in `clean` states and any other input leaves
the good ones, the good runs are exactly the runs of allowed steps.
-/
theorem throughout_iff_of_clean {step : State → Input → Option State}
    {good : State → Prop} {allowed : State → Input → Prop}
    (clean : State → Prop) (sound : ∀ state, clean state → good state)
    (kept : ∀ state input, clean state → allowed state input →
      ∃ next, step state input = some next ∧ clean next)
    (sharp : ∀ state input next, clean state → ¬ allowed state input →
      step state input = some next → ¬ good next)
    {state : State} {inputs : List Input} (initial : clean state) :
    Throughout step good state inputs ↔ EachStep step allowed state inputs := by
  induction inputs generalizing state with
  | nil => simp [Throughout, EachStep, sound state initial]
  | cons input inputs ih =>
      simp only [Throughout, EachStep, sound state initial, true_and]
      constructor
      · rintro ⟨next, hstep, rest⟩
        have hallowed : allowed state input := by
          by_contra refused
          exact sharp state input next initial refused hstep rest.start
        obtain ⟨next', hstep', hclean⟩ := kept state input initial hallowed
        rw [hstep, Option.some.injEq] at hstep'
        subst next'
        refine ⟨hallowed, ?_⟩
        intro after hafter
        rw [hstep, Option.some.injEq] at hafter
        subst after
        exact (ih hclean).1 rest
      · rintro ⟨hallowed, rest⟩
        obtain ⟨next, hstep, hclean⟩ := kept state input initial hallowed
        exact ⟨next, hstep, (ih hclean).2 (rest next hstep)⟩

/--
When, in every good state, the allowed inputs are exactly those that return in
a good state, the good runs are exactly the runs of allowed steps.
-/
theorem throughout_iff_eachStep {step : State → Input → Option State}
    {good : State → Prop} {allowed : State → Input → Prop}
    (invariant : State → Prop)
    (kept : ∀ state next input, invariant state →
      step state input = some next → invariant next)
    (precise : ∀ state input, invariant state → good state →
      (allowed state input ↔ ∃ next, step state input = some next ∧ good next))
    {state : State} {inputs : List Input} (initial : invariant state)
    (start : good state) :
    Throughout step good state inputs ↔ EachStep step allowed state inputs := by
  apply throughout_iff_of_clean (fun state => invariant state ∧ good state)
  · intro state clean
    exact clean.2
  · intro state input clean hallowed
    obtain ⟨next, hstep, hgood⟩ := (precise state input clean.1 clean.2).1 hallowed
    exact ⟨next, hstep, kept state next input clean.1 hstep, hgood⟩
  · intro state input next clean refused hstep hgood
    exact refused ((precise state input clean.1 clean.2).2 ⟨next, hstep, hgood⟩)
  · exact ⟨initial, start⟩

/--
While nothing makes a bad state good again, a run ends well exactly when each of its
steps is allowed.
-/
theorem final_iff_eachStep {step : State → Input → Option State}
    {good : State → Prop} {allowed : State → Input → Prop}
    (invariant : State → Prop) {inputs : List Input}
    (kept : ∀ state next, ∀ input ∈ inputs, invariant state →
      step state input = some next → invariant next)
    (precise : ∀ state next, ∀ input ∈ inputs, invariant state →
      step state input = some next → (good next ↔ good state ∧ allowed state input))
    {state final : State} (initial : invariant state)
    (reached : run step state inputs = some final) :
    good final ↔ good state ∧ EachStep step allowed state inputs := by
  induction inputs generalizing state with
  | nil =>
      cases reached
      simp [EachStep]
  | cons input inputs ih =>
      rw [run_cons, Option.bind_eq_some_iff] at reached
      obtain ⟨next, hstep, rest⟩ := reached
      have after := ih
        (fun state' next' input' member => kept state' next' input' (by simp [member]))
        (fun state' next' input' member => precise state' next' input' (by simp [member]))
        (kept state next input (by simp) initial hstep) rest
      rw [after, precise state next input (by simp) initial hstep]
      simp [EachStep, hstep, and_assoc]

/-- While nothing makes a bad state good again, the end of a run tells about every state. -/
theorem throughout_iff_final {step : State → Input → Option State} {good : State → Prop}
    (invariant : State → Prop) {inputs : List Input}
    (kept : ∀ state next, ∀ input ∈ inputs, invariant state →
      step state input = some next → invariant next)
    (lasts : ∀ state next, ∀ input ∈ inputs, invariant state →
      step state input = some next → good next → good state)
    {state final : State} (initial : invariant state)
    (reached : run step state inputs = some final) :
    Throughout step good state inputs ↔ good final := by
  induction inputs generalizing state with
  | nil =>
      cases reached
      rfl
  | cons input inputs ih =>
      rw [run_cons, Option.bind_eq_some_iff] at reached
      obtain ⟨next, hstep, rest⟩ := reached
      have after := ih
        (fun state' next' input' member => kept state' next' input' (by simp [member]))
        (fun state' next' input' member => lasts state' next' input' (by simp [member]))
        (kept state next input (by simp) initial hstep) rest
      simp only [Throughout, hstep, Option.some.injEq, exists_eq_left', after]
      constructor
      · exact fun both => both.2
      · intro good
        exact ⟨lasts state next input (by simp) initial hstep (after.2 good).start, good⟩

/-! ## Places that are reached -/

/-- A property of the places from here on is one of this place and of the next ones. -/
theorem forall_reached_iff {Place : Type u} {turn : Place → Place → Prop} {here : Place}
    {holds : Place → Prop} :
    (∀ place, Relation.ReflTransGen turn here place → holds place) ↔
      holds here ∧ ∀ after, turn here after →
        ∀ place, Relation.ReflTransGen turn after place → holds place := by
  constructor
  · intro all
    exact ⟨all _ .refl, fun after turns place reached => all place (.head turns reached)⟩
  · rintro ⟨first, rest⟩ place reached
    obtain rfl | ⟨after, turns, reached⟩ := reached.cases_head
    · exact first
    · exact rest after turns place reached

end Smartchip.Foundation
