import LibNrm.Timeserie
import Mathlib.Algebra.Order.Field.Basic
import Mathlib.Data.List.Sort

namespace LibNrm

/-! The law is written for any ordered field, with the two functions of `libm` it
calls as a parameter.  A quotient by zero is zero in a field where C has an
infinity or a NaN; which ticks act, and when, does not depend on a quotient.
-/

structure ControlInput (R : Type) where
  sensorUuid : NrmString
  scopeUuid : NrmString
  since : NrmTime
  timeserie : Option (Timeserie R)
deriving DecidableEq, Repr

structure ControlOutput (R : Type) where
  actuatorUuid : NrmString
  value : R
deriving DecidableEq, Repr

structure Libm (R : Type) where
  exp : R → R
  log : R → R

/-- The part of `struct europar21_data` that is never written after creation. -/
structure Europar21Params (R : Type) where
  active : Bool
  a : R
  b : R
  alpha : R
  beta : R
  kl : R
  t : R
  e : R
  tobj : R
  pcapMax : R
  pcapMinL : R
  pcapMaxL : R
deriving DecidableEq, Repr

structure Europar21 (R : Type) extends Europar21Params R where
  prevE : R
  lastaction : NrmTime
  inputs : List (ControlInput R)
  outputs : List (ControlOutput R)
deriving DecidableEq, Repr

namespace Europar21

/-- The `control` object of the configuration file after jansson has unpacked it. -/
structure Config (R : Type) where
  active : Bool
  inputs : List (List UInt8 × List UInt8)
  outputs : List (List UInt8)
  a : R
  b : R
  alpha : R
  beta : R
  kl : R
  t : R
  e : R
  tobj : R
  min : R
  max : R

variable {R : Type} [Field R] [LinearOrder R]

def linearize (libm : Libm R) (value a b alpha beta : R) : R :=
  -libm.exp (-alpha * (a * value + b - beta))

def error (e kl pcapMaxL prog : R) : R := e * kl * (1 + pcapMaxL) - prog

def thresholding (val lower upper : R) : R := max (min val upper) lower

def actionL (ki deltaTi kp e prevE prevPcapL : R) : R :=
  (ki * deltaTi + kp) * e - kp * prevE + prevPcapL

def delinearize (libm : Libm R) (value a b alpha beta : R) : R :=
  (-libm.log (-value) / alpha + beta - b) / a

def create (libm : Libm R) (creationtime : NrmTime) (config : Config R) : Europar21 R where
  active := config.active
  a := config.a
  b := config.b
  alpha := config.alpha
  beta := config.beta
  kl := config.kl
  t := config.t
  e := config.e
  tobj := config.tobj
  pcapMax := config.max
  pcapMinL := linearize libm config.min config.a config.b config.alpha config.beta
  pcapMaxL := linearize libm config.max config.a config.b config.alpha config.beta
  -- the memory comes from `calloc`
  prevE := 0
  lastaction := creationtime
  inputs := config.inputs.map fun (sensor, scope) =>
    ⟨stringFromchar sensor, stringFromchar scope, creationtime, none⟩
  outputs := config.outputs.map fun actuator => ⟨stringFromchar actuator, 0⟩

/-- The vectors handed out are the control's own, so what the caller writes into them stays
there. -/
def getargs (data : Europar21 R) : Europar21 R :=
  { data with inputs := data.inputs.map fun input => { input with since := data.lastaction } }

/-- `nrm_vector_sort_double_cmp` -/
def sortDoubleCmp (d1 d2 : R) : Int :=
  if d1 < d2 then -1
  else if d1 > d2 then 1
  else 0

/-- The loop of `nrm_control_europar21_events2progress`, from a previous event on. -/
def frequencies (prevE : Event R) : List (Event R) → List R
  | [] => []
  | e :: rest =>
      let delta := prevE.time.diff e.time
      e.value / (delta * (1 / 1000000000)) :: frequencies e rest

/-- The loop of `nrm_control_europar21_events2progress` as it is written, with
its reads by index: `i` is the loop counter and `left` the iterations to go. -/
def progressLoop (events : List (Event R)) : Nat → Nat → Event R → List R → Exec (List R)
  | _, 0, _, diffs => .ok diffs
  | i, left + 1, prevE, diffs => do
      let e ← deref events[i]?
      let delta := prevE.time.diff e.time
      progressLoop events (i + 1) left e (diffs ++ [e.value / (delta * (1 / 1000000000))])

def progressDiffs (events : List (Event R)) : Exec (List R) := do
  let prevE ← deref events[0]?
  progressLoop events 1 (events.length - 1) prevE []

/-- Progress per second between two events, from exact times. -/
def rate (prevE e : Event R) : R :=
  e.value / (((e.time.ns - prevE.time.ns : Int) : R) * (1 / 1000000000))

def rates (events : List (Event R)) : List R := events.zipWith rate events.tail

def events2progress (events : List (Event R)) : Exec R := do
  let numevents := events.length
  let diffs := match events with
    | [] => []
    | first :: rest => frequencies first rest
  let diffs := diffs.insertionSort fun d1 d2 => sortDoubleCmp d1 d2 ≤ 0
  if (numevents - 1) % 2 = 1 then deref diffs[(numevents - 1) / 2]?
  else do
    let a ← deref diffs[(numevents - 1) / 2 - 1]?
    let b ← deref diffs[(numevents - 1) / 2]?
    pure ((a + b) / 2)

/-- What an active control makes of a progress and a power cap: the error it
keeps for the next action and the new cap. -/
def law (libm : Libm R) (data : Europar21 R) (prog pcap : R) : R × R :=
  if prog < (1 - data.e) * data.kl ∨ prog > 2 * data.kl then (0, data.pcapMax)
  else
    let pcapL := linearize libm pcap data.a data.b data.alpha data.beta
    let newe := error data.e data.kl data.pcapMaxL prog
    let actL := actionL (1 / (data.kl * data.tobj / 3)) 1 (data.t / (data.kl * data.tobj)) newe
      data.prevE pcapL
    let threshold := thresholding actL data.pcapMinL data.pcapMaxL
    (newe, delinearize libm threshold data.a data.b data.alpha data.beta)

/-- The branch of the law that trusts the model. -/
def InModel (data : Europar21 R) (prog : R) : Prop :=
  ¬ (prog < (1 - data.e) * data.kl ∨ prog > 2 * data.kl)

/-- The command of the PI step before it is clamped. -/
def command (libm : Libm R) (data : Europar21 R) (prog pcap : R) : R :=
  actionL (1 / (data.kl * data.tobj / 3)) 1 (data.t / (data.kl * data.tobj))
    (error data.e data.kl data.pcapMaxL prog) data.prevE
    (linearize libm pcap data.a data.b data.alpha data.beta)

/-- `nrm_control_europar21_action`, with the clock reading of its last lines. -/
def action (libm : Libm R) (now : NrmTime) (data : Europar21 R) (inputs : List (ControlInput R))
    (outputs : List (ControlOutput R)) : Exec (Int × Europar21 R × List (ControlOutput R)) :=
  match inputs with
  | [] => .ok (-nrmEinval, data, outputs)
  | input :: _ =>
      match Timeserie.getEvents input.timeserie with
      | none => .ok (0, data, outputs)
      | some events =>
          if events.length ≤ 1 then .ok (0, data, outputs)
          else do
            let prog ← events2progress events
            match outputs with
            | [] => .ok (-nrmEinval, data, outputs)
            | out :: rest =>
                let (prevE, value) :=
                  if data.active then law libm data prog out.value else (data.prevE, out.value)
                .ok (0, { data with prevE := prevE, lastaction := now },
                  { out with value := value } :: rest)

omit [LinearOrder R] in
theorem frequencies_length (prevE : Event R) (events : List (Event R)) :
    (frequencies prevE events).length = events.length := by
  induction events generalizing prevE with
  | nil => rfl
  | cons e rest ih => simp only [frequencies, List.length_cons, ih e]

theorem events2progress_completes {events : List (Event R)} (several : 1 < events.length) :
    ∃ prog, events2progress events = .ok prog := by
  cases events with
  | nil => simp at several
  | cons first rest =>
      simp only [List.length_cons] at several
      have length : ((frequencies first rest).insertionSort
          fun d1 d2 => sortDoubleCmp d1 d2 ≤ 0).length = rest.length := by
        rw [List.length_insertionSort, frequencies_length]
      simp only [events2progress, List.length_cons, Nat.add_sub_cancel]
      generalize (frequencies first rest).insertionSort
        (fun d1 d2 => sortDoubleCmp d1 d2 ≤ 0) = sorted at length
      have upper : rest.length / 2 < sorted.length := by omega
      have lower : rest.length / 2 - 1 < sorted.length := by omega
      rw [List.getElem?_eq_getElem upper, List.getElem?_eq_getElem lower]
      split
      · exact ⟨_, rfl⟩
      · exact ⟨_, rfl⟩

/-- The series an action works with: that of its first input, provided it has two events and
there is an output to set. -/
def consumed (inputs : List (ControlInput R)) (outputs : List (ControlOutput R)) :
    Option (List (Event R)) :=
  match inputs with
  | [] => none
  | input :: _ =>
      match Timeserie.getEvents input.timeserie with
      | none => none
      | some events => if 1 < events.length ∧ outputs ≠ [] then some events else none

omit [Field R] [LinearOrder R] in
theorem consumed_eq_some {inputs : List (ControlInput R)} {outputs : List (ControlOutput R)}
    {events : List (Event R)} (taken : consumed inputs outputs = some events) :
    ∃ input, inputs.head? = some input ∧ Timeserie.getEvents input.timeserie = some events ∧
      1 < events.length ∧ outputs ≠ [] := by
  cases inputs with
  | nil => cases taken
  | cons input rest =>
      simp only [consumed] at taken
      cases present : Timeserie.getEvents input.timeserie with
      | none => simp [present] at taken
      | some series =>
          simp only [present] at taken
          split at taken
          · rename_i enough
            cases taken
            exact ⟨input, rfl, present, enough⟩
          · cases taken

/-- Every action completes.  One that consumes nothing changes nothing at all;
one that does moves `lastaction` to its clock reading and touches only the error
term and the value of the first output besides. -/
theorem action_cases (libm : Libm R) (now : NrmTime) (data : Europar21 R)
    (inputs : List (ControlInput R)) (outputs : List (ControlOutput R)) :
    (consumed inputs outputs = none ∧
      ∃ code, action libm now data inputs outputs = .ok (code, data, outputs)) ∨
    (∃ events prevE value out rest, consumed inputs outputs = some events ∧
      outputs = out :: rest ∧
      action libm now data inputs outputs =
        .ok (0, { data with prevE := prevE, lastaction := now },
          { out with value := value } :: rest)) := by
  cases inputs with
  | nil =>
      left
      exact ⟨rfl, _, rfl⟩
  | cons input others =>
      simp only [action, consumed]
      cases present : Timeserie.getEvents input.timeserie with
      | none =>
          left
          exact ⟨rfl, _, rfl⟩
      | some events =>
          by_cases few : events.length ≤ 1
          · left
            have notSeveral : ¬ 1 < events.length := by omega
            exact ⟨by simp [notSeveral], 0, by simp only [few, ↓reduceIte]⟩
          · have several : 1 < events.length := by omega
            obtain ⟨prog, computed⟩ := events2progress_completes several
            simp only [few, ↓reduceIte, computed, Exec.ok_bind, several, true_and]
            cases outputs with
            | nil =>
                left
                exact ⟨by simp, _, rfl⟩
            | cons out rest =>
                right
                exact ⟨events, _, _, out, rest, by simp, rfl, rfl⟩

end Europar21

end LibNrm
