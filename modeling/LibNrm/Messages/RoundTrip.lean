import LibNrm.Messages

namespace LibNrm

theorem msgScopeNew_decoded {scope : Scope} (free : NulFree scope.uuid) :
    (msgScopeNew scope).decoded = scope := by
  obtain ⟨uuid, cpu, numa, gpu⟩ := scope
  simp only [msgScopeNew, MsgScope.decoded, scopeCreate, Bitmap.fromArray_toArray, stringFromchar_idem]
  rw [stringFromchar_of_nulFree free]

namespace Actuator

def Sorted (actuator : Actuator) : Prop :=
  ∀ choices, actuator.u = .choices choices → choices.Pairwise (· ≤ ·)

structure Canonical (actuator : Actuator) : Prop where
  consistent : actuator.Consistent
  uuid : NulFree actuator.uuid
  clientid : ∀ owner, actuator.clientid = some owner → NulFree owner
  sorted : actuator.Sorted

theorem Canonical.roundTrip {actuator : Actuator} (canonical : actuator.Canonical)
    {payload : MsgActuator} (encoded : msgActuatorNew actuator = .ok payload) :
    payload.decoded = actuator := by
  obtain ⟨type, uuid, clientid, value, u, ops⟩ := actuator
  have uuidEq := stringFromchar_of_nulFree canonical.uuid
  have clientEq : (clientid.map stringFromchar).map stringFromchar = clientid := by
    cases clientid with
    | none => rfl
    | some owner =>
        simp only [Option.map_some, stringFromchar_idem]
        rw [stringFromchar_of_nulFree (canonical.clientid owner rfl)]
  have order := canonical.sorted
  cases canonical.consistent with
  | discrete sorted typeEq opsEq uEq =>
      simp only at typeEq opsEq uEq uuidEq
      subst typeEq opsEq uEq
      simp only [msgActuatorNew, ↓reduceIte, choices, Exec.ok_bind, Exec.pure_eq_ok,
        Except.ok.injEq] at encoded
      subst encoded
      simp only [MsgActuator.decoded, uuidEq, clientEq]
      rw [(order sorted rfl).insertionSort_eq]
  | continuous min max typeEq opsEq uEq =>
      simp only at typeEq opsEq uEq uuidEq
      subst typeEq opsEq uEq
      simp [msgActuatorNew, limits, actuatorTypeDiscrete, actuatorTypeContinuous] at encoded
      subst encoded
      simp only [MsgActuator.decoded, uuidEq, clientEq, actuatorTypeContinuous]

end Actuator

theorem MsgActuator.WellFormed.decoded_canonical {msg : MsgActuator} (wellFormed : msg.WellFormed) :
    msg.decoded.Canonical := by
  refine ⟨wellFormed.decoded_consistent, ?_, ?_, ?_⟩
  · rw [decoded_uuid]
    exact stringFromchar_nulFree _
  · have owner : msg.decoded.clientid = msg.clientid.map stringFromchar := by
      cases wellFormed with
      | discrete choices type data => simp [decoded, data]
      | continuous lmin lmax type data => simp [decoded, data]
    intro other owned
    rw [owner] at owned
    obtain ⟨chars, _, rfl⟩ := Option.map_eq_some_iff.mp owned
    exact stringFromchar_nulFree chars
  · intro choices stored
    cases wellFormed with
    | discrete sent type data =>
        simp only [decoded, data, ActuatorUnion.choices.injEq] at stored
        rw [← stored]
        exact List.pairwise_insertionSort (· ≤ ·) sent
    | continuous lmin lmax type data => simp [decoded, data] at stored

end LibNrm
