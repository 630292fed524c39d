import LibNrm.Actuator
import LibNrm.Utils.Jansson

namespace LibNrm

/-- `nrm_actuator_type_table` -/
def actuatorTypeTable : List (Int × List UInt8) :=
  [(actuatorTypeDiscrete, [68, 73, 83, 67, 82, 69, 84, 69]),
    (actuatorTypeContinuous, [67, 79, 78, 84, 73, 78, 85, 79, 85, 83])]

/-- `nrm_actuator_type_s2t`: the index in the table and not the type next to the name. -/
def actuatorTypeS2t (string : List UInt8) : Int :=
  match actuatorTypeTable.findIdx? fun entry => stringFromchar string = entry.2 with
  | some i => i
  | none => -1

theorem actuatorTypeS2t_cases (string : List UInt8) :
    actuatorTypeS2t string = actuatorTypeDiscrete ∨
      actuatorTypeS2t string = actuatorTypeContinuous ∨ actuatorTypeS2t string = -1 := by
  unfold actuatorTypeS2t
  split
  · rename_i i found
    obtain ⟨inside, _⟩ := List.findIdx?_eq_some_iff_findIdx_eq.mp found
    have bound : i < 2 := inside
    have small : i = 0 ∨ i = 1 := by omega
    obtain rfl | rfl := small
    · exact .inl rfl
    · exact .inr (.inl rfl)
  · exact .inr (.inr rfl)

namespace Actuator

variable (jansson : Jansson)

/-- `nrm_vector_d_from_json` of `data->u.choices`, in the order of the array. -/
def vectorDFromJson (actuator : Actuator) (json : Option jansson.Json) : Exec (Int × Actuator) :=
  match json.bind jansson.elements with
  | none => .ok (-nrmEinval, actuator)
  | some values => do
      -- the pointer was only copied so far
      let _ ← actuator.choices
      .ok (0, { actuator with u := .choices (values.map jansson.realValue) })

/-- `json_unpack_ex` by `"{s?:o}"`: the target unless it fails. -/
def unpackDiscrete (json : Option jansson.Json) : Option (Option jansson.Json) := do
  let get ← json.bind jansson.members
  pure (get "choices")

/-- `nrm_actuator_discrete_from_json` -/
def discreteFromJson (actuator : Actuator) (json : Option jansson.Json) : Exec (Int × Actuator) :=
  match unpackDiscrete jansson json with
  | none => .ok (-nrmEinval, actuator)
  | some choices => do
      let (_, actuator) ← actuator.vectorDFromJson jansson choices
      .ok (0, actuator)

/-- The targets of an actuator's `json_unpack_ex`.  `clientid` is unpacked as an object and
not as a string. -/
structure Unpacked (Json : Type) where
  uuid : List UInt8
  clientid : Option Json
  type : List UInt8
  value : Option ℚ
  subtype : Option Json

/-- `json_unpack_ex` by `"{s:s, s?:o, s:s, s?:f, s?:o}"`.  Nothing can fail behind the value,
so that a call that fails has not written it. -/
def unpack (json : Option jansson.Json) : Option (Unpacked jansson.Json) := do
  let get ← json.bind jansson.members
  let uuid ← (get "uuid").bind jansson.stringOf
  let type ← (get "type").bind jansson.stringOf
  let value ← Jansson.unpackOptional jansson.realOf (get "value")
  pure ⟨uuid, get "clientid", type, value, get "subtype"⟩

/-- What is in `data` before the type: the value, the name, and a client id, which is a
`json_t` whose bytes are read as its characters. -/
def storeNames (actuator : Actuator) (unpacked : Unpacked jansson.Json) : Actuator :=
  { actuator with
    value := unpacked.value.getD actuator.value
    uuid := stringFromchar unpacked.uuid
    clientid := match unpacked.clientid with
      | some clientid => some (stringFromchar (jansson.chars clientid))
      | none => actuator.clientid }

/-- The type and the `switch` over it; `data->type` is a `size_t`. -/
def storeType (actuator : Actuator) (unpacked : Unpacked jansson.Json) : Exec (Int × Actuator) :=
  let actuator := { actuator with type := actuatorTypeS2t unpacked.type % 2 ^ 64 }
  if actuator.type = actuatorTypeDiscrete then actuator.discreteFromJson jansson unpacked.subtype
  else .ok (-nrmEinval, actuator)

/-- `nrm_actuator_from_json` -/
def fromJson (actuator : Actuator) (json : Option jansson.Json) : Exec (Int × Actuator) :=
  match unpack jansson json with
  | none => .ok (-nrmEinval, actuator)
  | some unpacked => (actuator.storeNames jansson unpacked).storeType jansson unpacked

end Actuator

end LibNrm
