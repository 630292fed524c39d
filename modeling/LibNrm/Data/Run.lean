import Mathlib.Data.List.Induction

namespace LibNrm.Data

/-! Finite runs of a machine whose steps may fault.

`run` feeds a list of inputs to a step function one after the other and stops
at the first fault.  `Run` is the same notion for a step relation, used where a
scheduler picks the next step.  Both come with the induction that turns what one
step preserves into what every run preserves.
-/

section Functional

variable {State Input Fault : Type} {step : State → Input → Except Fault State}

def run (step : State → Input → Except Fault State) : State → List Input → Except Fault State
  | state, [] => .ok state
  | state, input :: rest =>
      match step state input with
      | .ok next => run step next rest
      | .error fault => .error fault

theorem run_append (state : State) (first second : List Input) :
    run step state (first ++ second) =
      match run step state first with
      | .ok middle => run step middle second
      | .error fault => .error fault := by
  induction first generalizing state with
  | nil => rfl
  | cons input rest ih =>
      simp only [List.cons_append, run]
      cases step state input with
      | error fault => rfl
      | ok next => exact ih next

theorem run_snoc {state middle : State} {inputs : List Input} (input : Input)
    (ran : run step state inputs = .ok middle) :
    run step state (inputs ++ [input]) = step middle input := by
  rw [run_append, ran]
  simp only [run]
  cases step middle input <;> rfl

/-- What holds at the start and is kept by every step that completes holds of
every state a run reaches, and may speak of the inputs that led there. -/
theorem run_history {motive : List Input → State → Prop} {state final : State}
    {inputs : List Input} (ran : run step state inputs = .ok final) (initial : motive [] state)
    (preserved : ∀ before middle input next, run step state before = .ok middle →
      motive before middle → step middle input = .ok next → motive (before ++ [input]) next) :
    motive inputs final := by
  induction inputs using List.reverseRecOn generalizing final with
  | nil =>
      cases ran
      exact initial
  | append_singleton before input ih =>
      cases reached : run step state before with
      | error fault =>
          rw [run_append, reached] at ran
          cases ran
      | ok middle =>
          rw [run_snoc input reached] at ran
          exact preserved before middle input final reached (ih reached) ran

/-- If acceptable inputs never fault from a state satisfying the invariant and
re-establish it, then every run over acceptable inputs completes in a state
satisfying the invariant. -/
theorem run_total {motive : State → Prop} {acceptable : Input → Prop}
    (progress : ∀ state input, motive state → acceptable input →
      ∃ next, step state input = .ok next ∧ motive next)
    {state : State} {inputs : List Input} (initial : motive state)
    (accepted : ∀ input ∈ inputs, acceptable input) :
    ∃ final, run step state inputs = .ok final ∧ motive final := by
  induction inputs generalizing state with
  | nil => exact ⟨state, rfl, initial⟩
  | cons input rest ih =>
      obtain ⟨next, stepped, kept⟩ := progress state input initial (accepted input List.mem_cons_self)
      obtain ⟨final, ran, holds⟩ :=
        ih kept (fun input member => accepted input (List.mem_cons_of_mem _ member))
      exact ⟨final, by simp only [run, stepped, ran], holds⟩

end Functional

section Relational

variable {State Action : Type} {step : State → Action → State → Prop}

/-- Runs of a step relation, extended at their end. -/
inductive Run (step : State → Action → State → Prop) : State → List Action → State → Prop where
  | nil (state : State) : Run step state [] state
  | snoc {first middle last : State} {actions : List Action} {action : Action} :
      Run step first actions middle → step middle action last →
      Run step first (actions ++ [action]) last

theorem Run.invariant {motive : State → Prop} {first last : State} {actions : List Action}
    (ran : Run step first actions last) (initial : motive first)
    (preserved : ∀ before action after, motive before → step before action after →
      motive after) : motive last := by
  induction ran with
  | nil => exact initial
  | snoc _ stepped ih => exact preserved _ _ _ ih stepped

/-- The invariant rule for runs whose steps all meet a condition. -/
theorem Run.invariant_of {motive : State → Prop} {condition : State → Action → Prop}
    {first last : State} {actions : List Action}
    (ran : Run (fun before action after => condition before action ∧ step before action after)
      first actions last)
    (initial : motive first)
    (preserved : ∀ before action after, motive before → condition before action →
      step before action after → motive after) : motive last :=
  ran.invariant initial (fun before action after holds stepped =>
    preserved before action after holds stepped.1 stepped.2)

theorem Run.imp {weaker : State → Action → State → Prop} {first last : State}
    {actions : List Action} (ran : Run step first actions last)
    (weaken : ∀ before action after, step before action after → weaker before action after) :
    Run weaker first actions last := by
  induction ran with
  | nil => exact .nil first
  | snoc _ stepped ih => exact .snoc ih (weaken _ _ _ stepped)

theorem Run.trans {first middle last : State} {before after : List Action}
    (ran : Run step first before middle) (continued : Run step middle after last) :
    Run step first (before ++ after) last := by
  induction continued with
  | nil => simpa using ran
  | snoc _ stepped ih =>
      rw [← List.append_assoc]
      exact .snoc ih stepped

theorem Run.cons {first middle last : State} {action : Action} {actions : List Action}
    (stepped : step first action middle) (ran : Run step middle actions last) :
    Run step first (action :: actions) last :=
  Run.trans (.snoc (.nil first) stepped) ran

theorem Run.length_le {first last : State} {actions : List Action}
    (ran : Run step first actions last) (measure : State → Nat)
    (lowers : ∀ before action after, step before action after → measure after < measure before) :
    actions.length + measure last ≤ measure first := by
  induction ran with
  | nil => simp
  | snoc _ stepped ih =>
      have lower := lowers _ _ _ stepped
      rw [List.length_append, List.length_singleton]
      omega

end Relational

section Checked

variable {State Input Fault : Type}

/-- Check a condition before every step of a functional run. -/
def accepted (step : State → Input → Except Fault State) (condition : State → Input → Prop)
    [∀ state input, Decidable (condition state input)] : State → List Input → Bool
  | _, [] => true
  | state, input :: rest =>
      decide (condition state input) &&
        match step state input with
        | .ok next => accepted step condition next rest
        | .error _ => false

theorem Run.of_accepted {step : State → Input → Except Fault State}
    {condition : State → Input → Prop} [∀ state input, Decidable (condition state input)]
    {property : State → Prop} (state : State) (inputs : List Input)
    (accept : accepted step condition state inputs = true)
    (holds : ∀ final ∈ (run step state inputs).toOption, property final) :
    ∃ final, Run (fun before input after => condition before input ∧ step before input = .ok after)
      state inputs final ∧ property final := by
  induction inputs generalizing state with
  | nil => exact ⟨state, .nil state, holds state rfl⟩
  | cons input rest ih =>
      simp only [accepted, Bool.and_eq_true, decide_eq_true_eq] at accept
      cases stepped : step state input with
      | error fault => simp [stepped] at accept
      | ok next =>
          simp only [stepped] at accept
          simp only [run, stepped] at holds
          obtain ⟨final, ran, proved⟩ := ih next accept.2 holds
          exact ⟨final, ran.cons ⟨accept.1, stepped⟩, proved⟩

end Checked

section Transcripts

variable {State Spec Input Reply Fault : Type}

/-- A run that keeps what every step answers. -/
def transcript (step : State → Input → Except Fault (State × Reply)) :
    State → List Input → Except Fault (State × List Reply)
  | state, [] => .ok (state, [])
  | state, input :: rest => do
      let (next, reply) ← step state input
      let (final, replies) ← transcript step next rest
      pure (final, reply :: replies)

/-- Two outcomes that no caller can tell apart, with related states behind them. -/
inductive Agree (related : State → Spec → Prop) :
    Except Fault (State × Reply) → Except Fault (Spec × Reply) → Prop where
  | ok {state : State} {spec : Spec} {reply : Reply} :
      related state spec → Agree related (.ok (state, reply)) (.ok (spec, reply))
  | error {fault : Fault} : Agree related (.error fault) (.error fault)

theorem transcript_agree {related : State → Spec → Prop} {acceptable : Input → Prop}
    {step : State → Input → Except Fault (State × Reply)}
    {specStep : Spec → Input → Except Fault (Spec × Reply)}
    (simulates : ∀ state spec input, related state spec → acceptable input →
      Agree related (step state input) (specStep spec input))
    {state : State} {spec : Spec} (initial : related state spec) {inputs : List Input}
    (accepted : ∀ input ∈ inputs, acceptable input) :
    Agree related (transcript step state inputs) (transcript specStep spec inputs) := by
  induction inputs generalizing state spec with
  | nil => exact .ok initial
  | cons input rest ih =>
      have agree := simulates state spec input initial (accepted input List.mem_cons_self)
      rw [transcript, transcript]
      generalize step state input = done, specStep spec input = specified at agree ⊢
      cases agree with
      | error => exact .error
      | @ok next specNext reply kept =>
          have later := ih kept (fun input member => accepted input (List.mem_cons_of_mem _ member))
          change Agree related
            (transcript step next rest >>= fun result => .ok (result.1, reply :: result.2))
            (transcript specStep specNext rest >>= fun result => .ok (result.1, reply :: result.2))
          generalize transcript step next rest = done, transcript specStep specNext rest = specified
            at later ⊢
          cases later with
          | ok final => exact .ok final
          | error => exact .error

end Transcripts

end LibNrm.Data
