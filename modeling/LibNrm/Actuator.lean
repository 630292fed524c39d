import LibNrm.Objects
import Mathlib.Data.Rat.Defs
import Mathlib.Data.List.Sort
import Mathlib.Algebra.Order.Ring.Rat
import Mathlib.Algebra.Order.Group.Abs

namespace LibNrm

/-! Doubles are exact rationals.  An actuator carries a type tag, a table of
operations and a union; nothing in the C type forces the three to denote the
same kind, so they are three fields here and the operations fault when they
read the union as the kind it is not.
-/

/-- `DBL_MAX` -/
def dblMax : ℚ := (2 ^ 53 - 1) * 2 ^ 971

/-- Which of the two operation tables `ops` points to. -/
inductive ActuatorOps where
  | discrete
  | continuous
deriving DecidableEq, Repr

inductive ActuatorUnion where
  | choices (choices : List ℚ)
  | limits (min max : ℚ)
deriving DecidableEq, Repr

def actuatorTypeDiscrete : Int := 0
def actuatorTypeContinuous : Int := 1

structure Actuator where
  type : Int
  uuid : NrmString
  clientid : Option NrmString
  value : ℚ
  u : ActuatorUnion
  ops : ActuatorOps
deriving DecidableEq, Repr

namespace Actuator

/-- Reading `data->u.choices`. -/
def choices (actuator : Actuator) : Exec (List ℚ) :=
  match actuator.u with
  | .choices choices => .ok choices
  | .limits _ _ => .error .wrongMember

/-- Reading `data->u.limits`. -/
def limits (actuator : Actuator) : Exec (ℚ × ℚ) :=
  match actuator.u with
  | .limits min max => .ok (min, max)
  | .choices _ => .error .wrongMember

/-- `nrm_actuator_discrete_create` -/
def discreteCreate (name : List UInt8) : Actuator where
  type := actuatorTypeDiscrete
  uuid := stringFromchar name
  clientid := none
  value := 0
  u := .choices []
  ops := .discrete

/-- `nrm_actuator_continuous_create` -/
def continuousCreate (name : List UInt8) : Actuator where
  type := actuatorTypeContinuous
  uuid := stringFromchar name
  clientid := none
  value := 0
  u := .limits 0 0
  ops := .continuous

/-- `nrm_actuator_discrete_set_choices`: `qsort` by `nrm_vector_sort_double_cmp`. -/
def discreteSetChoices (actuator : Actuator) (choices : List ℚ) : Exec (Int × Actuator) :=
  if choices = [] then .ok (-nrmEinval, actuator)
  else do
    let _ ← actuator.choices
    .ok (0, { actuator with u := .choices (choices.insertionSort (· ≤ ·)) })

/-- `nrm_actuator_continuous_set_limits` -/
def continuousSetLimits (actuator : Actuator) (min max : ℚ) : Int × Actuator :=
  (0, { actuator with u := .limits min max })

/-- `nrm_actuator_set_value` -/
def setValue (actuator : Actuator) (value : ℚ) : Actuator := { actuator with value := value }

/-- `nrm_actuator_set_clientid` -/
def setClientid (actuator : Actuator) (clientid : NrmString) : Actuator :=
  { actuator with clientid := some clientid }

/-- The loop of `nrm_actuator_discrete_corrected_value`: keep the first choice
that is strictly closer than the best one so far. -/
def nearest (value : ℚ) : List ℚ → ℚ → ℚ → ℚ
  | [], best, _ => best
  | choice :: rest, best, dist =>
      if |value - choice| < dist then nearest value rest choice |value - choice|
      else nearest value rest best dist

/-- `nrm_actuator_discrete_corrected_value`: the return code and the value left
in the in-out parameter. -/
def discreteCorrectedValue (actuator : Actuator) (value : ℚ) : Exec (Int × ℚ) := do
  let choices ← actuator.choices
  match choices.head?, choices.getLast? with
  | some min, some max =>
      if value < min then .ok (0, min)
      else if value > max then .ok (0, max)
      else .ok (0, nearest value choices value dblMax)
  | _, _ => .ok (-nrmEinval, value)

/-- `nrm_actuator_discrete_validate_value` -/
def discreteValidateValue (actuator : Actuator) (value : ℚ) : Exec Int := do
  let choices ← actuator.choices
  if value ∈ choices then .ok 0 else .ok (-nrmEdom)

/-- `nrm_actuator_continuous_corrected_value` -/
def continuousCorrectedValue (actuator : Actuator) (value : ℚ) : Exec (Int × ℚ) := do
  let (min, max) ← actuator.limits
  if value < min then .ok (0, min)
  else if value > max then .ok (0, max)
  else .ok (0, value)

/-- `nrm_actuator_continuous_validate_value` -/
def continuousValidateValue (actuator : Actuator) (value : ℚ) : Exec Int := do
  let (min, max) ← actuator.limits
  if value < min ∨ value > max then .ok (-nrmEdom) else .ok 0

/-- `nrm_actuator_corrected_value` -/
def correctedValue (actuator : Actuator) (value : ℚ) : Exec (Int × ℚ) :=
  match actuator.ops with
  | .discrete => actuator.discreteCorrectedValue value
  | .continuous => actuator.continuousCorrectedValue value

/-- `nrm_actuator_validate_value` -/
def validateValue (actuator : Actuator) (value : ℚ) : Exec Int :=
  match actuator.ops with
  | .discrete => actuator.discreteValidateValue value
  | .continuous => actuator.continuousValidateValue value

/-- `nrm_actuator_destroy`: the discrete operation also frees `data->u.choices`. -/
def destroy : Ptr Actuator → Exec (Option Actuator)
  | .null => .ok none
  | .freedElement => .error .danglingPointer
  | .object actuator =>
      match actuator.ops with
      | .discrete => do
          let _ ← actuator.choices
          .ok (some actuator)
      | .continuous => .ok (some actuator)

/-- The tag, the operations and the union denote the same kind. -/
inductive Consistent (actuator : Actuator) : Prop where
  | discrete (choices : List ℚ) (type : actuator.type = actuatorTypeDiscrete)
      (ops : actuator.ops = .discrete) (u : actuator.u = .choices choices)
  | continuous (min max : ℚ) (type : actuator.type = actuatorTypeContinuous)
      (ops : actuator.ops = .continuous) (u : actuator.u = .limits min max)

theorem Consistent.setValue {actuator : Actuator} (consistent : actuator.Consistent) (value : ℚ) :
    (actuator.setValue value).Consistent := by
  cases consistent with
  | discrete choices type ops u => exact .discrete choices type ops u
  | continuous min max type ops u => exact .continuous min max type ops u

theorem Consistent.setClientid {actuator : Actuator} (consistent : actuator.Consistent)
    (clientid : NrmString) : (actuator.setClientid clientid).Consistent := by
  cases consistent with
  | discrete choices type ops u => exact .discrete choices type ops u
  | continuous min max type ops u => exact .continuous min max type ops u

theorem Consistent.correctedValue_completes {actuator : Actuator}
    (consistent : actuator.Consistent) (value : ℚ) :
    ∃ code corrected, actuator.correctedValue value = .ok (code, corrected) := by
  cases consistent with
  | discrete choices type ops u =>
      simp only [correctedValue, ops, discreteCorrectedValue, Actuator.choices, u, Exec.ok_bind]
      split
      · split
        · exact ⟨_, _, rfl⟩
        · split <;> exact ⟨_, _, rfl⟩
      · exact ⟨_, _, rfl⟩
  | continuous min max type ops u =>
      simp only [correctedValue, ops, continuousCorrectedValue, Actuator.limits, u, Exec.ok_bind]
      split
      · exact ⟨_, _, rfl⟩
      · split <;> exact ⟨_, _, rfl⟩

end Actuator

end LibNrm
