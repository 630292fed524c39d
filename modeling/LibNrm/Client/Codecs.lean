import LibNrm.Client
import LibNrm.Registry.Replies

namespace LibNrm

/-- An actuator as its creators and setters make it, in any order and number. Choices are for
discrete actuators and limits for continuous ones; a client id is what
`nrm_uuid_create_fromchar` makes of a string, and NULL of NULL. -/
inductive Actuator.Built : Actuator → Prop where
  | discreteCreate (name : List UInt8) : Built (discreteCreate name)
  | continuousCreate (name : List UInt8) : Built (continuousCreate name)
  | setChoices {actuator set : Actuator} {code : Int} (choices : List ℚ) (built : Built actuator)
      (type : actuator.type = actuatorTypeDiscrete)
      (done : actuator.discreteSetChoices choices = .ok (code, set)) : Built set
  | setLimits {actuator : Actuator} (min max : ℚ) (built : Built actuator)
      (type : actuator.type = actuatorTypeContinuous) :
      Built (actuator.continuousSetLimits min max).2
  | setValue {actuator : Actuator} (value : ℚ) (built : Built actuator) :
      Built (actuator.setValue value)
  | setClientid {actuator : Actuator} (clientid : Option (List UInt8)) (built : Built actuator) :
      Built { actuator with clientid := clientid.map stringFromchar }

/-- Scopes can have any maps; sensors and slices are their uuid. -/
def Object.Built : Object → Prop
  | .slice object => ∃ name, object = sliceCreate name
  | .sensor object => ∃ name, object = sensorCreate name
  | .scope object =>
      ∃ name cpu numa gpu, object = { scopeCreate name with cpu := cpu, numa := numa, gpu := gpu }
  | .actuator object => object.Built

/-- The object a client holds once the server knows it. -/
def Object.ownedBy (clientid : NrmString) : Object → Object
  | .actuator object => .actuator (object.setClientid clientid)
  | object => object

namespace Actuator

theorem Canonical.discreteSetChoices {actuator set : Actuator} (canonical : actuator.Canonical)
    (type : actuator.type = actuatorTypeDiscrete) {choices : List ℚ} {code : Int}
    (done : actuator.discreteSetChoices choices = .ok (code, set)) : set.Canonical := by
  simp only [Actuator.discreteSetChoices] at done
  split at done
  · cases done
    exact canonical
  · obtain ⟨old, _, stored⟩ := Exec.bind_eq_ok.mp done
    cases stored
    cases canonical.consistent with
    | discrete _ _ ops _ =>
        refine ⟨.discrete _ type ops rfl, canonical.uuid, canonical.clientid, ?_⟩
        intro sorted same
        cases same
        exact List.pairwise_insertionSort (· ≤ ·) choices
    | continuous min max other _ _ => cases type.symm.trans other

theorem Canonical.continuousSetLimits {actuator : Actuator} (canonical : actuator.Canonical)
    (type : actuator.type = actuatorTypeContinuous) (min max : ℚ) :
    (actuator.continuousSetLimits min max).2.Canonical := by
  cases canonical.consistent with
  | discrete choices other _ _ => cases type.symm.trans other
  | continuous _ _ _ ops _ =>
      refine ⟨.continuous min max type ops rfl, canonical.uuid, canonical.clientid, ?_⟩
      intro choices same
      cases same

theorem Canonical.withClientid {actuator : Actuator} (canonical : actuator.Canonical)
    {clientid : Option NrmString} (free : ∀ owner, clientid = some owner → NulFree owner) :
    Canonical { actuator with clientid := clientid } := by
  refine ⟨?_, canonical.uuid, free, canonical.sorted⟩
  cases canonical.consistent with
  | discrete choices type ops u => exact .discrete choices type ops u
  | continuous min max type ops u => exact .continuous min max type ops u

theorem Built.canonical {actuator : Actuator} (built : actuator.Built) : actuator.Canonical := by
  induction built with
  | discreteCreate name =>
      refine ⟨.discrete [] rfl rfl rfl, stringFromchar_nulFree name, fun _ => nofun, ?_⟩
      intro choices same
      cases same
      exact List.Pairwise.nil
  | continuousCreate name =>
      refine ⟨.continuous 0 0 rfl rfl rfl, stringFromchar_nulFree name, fun _ => nofun, ?_⟩
      intro choices same
      cases same
  | setChoices choices _ type done ih => exact ih.discreteSetChoices type done
  | setLimits min max _ type ih => exact ih.continuousSetLimits type min max
  | setValue value _ ih => exact ⟨ih.consistent.setValue value, ih.uuid, ih.clientid, ih.sorted⟩
  | setClientid clientid _ ih =>
      apply ih.withClientid
      intro owner same
      obtain ⟨chars, _, rfl⟩ := Option.map_eq_some_iff.mp same
      exact stringFromchar_nulFree chars

/-- Updating an actuator from the message of itself under another client id sets the client id. -/
theorem Canonical.updateFrommsg {actuator : Actuator} (canonical : actuator.Canonical)
    {clientid : NrmString} (free : NulFree clientid) {payload : MsgActuator}
    (encoded : msgActuatorNew (actuator.setClientid clientid) = .ok payload) :
    actuator.updateFrommsg (some payload) = .ok (actuator.setClientid clientid) := by
  obtain ⟨type, uuid, owner, value, u, ops⟩ := actuator
  have uuidEq := stringFromchar_of_nulFree canonical.uuid
  have clientEq := stringFromchar_of_nulFree free
  have order := canonical.sorted
  cases canonical.consistent with
  | discrete choices typeEq opsEq uEq =>
      simp only at typeEq opsEq uEq uuidEq
      subst typeEq opsEq uEq
      simp only [msgActuatorNew, setClientid, ↓reduceIte, Actuator.choices, Exec.ok_bind,
        Exec.pure_eq_ok, Except.ok.injEq, Option.map_some, uuidEq, clientEq] at encoded
      subst encoded
      simp only [Actuator.updateFrommsg, MsgActuator.discrete, Exec.ok_bind, deref_some,
        Actuator.discreteSetChoices, Actuator.choices, setClientid, Actuator.setValue, uuidEq,
        clientEq, ↓reduceIte]
      by_cases empty : choices = []
      · simp only [empty, ↓reduceIte, Exec.ok_bind, Exec.pure_eq_ok]
      · simp only [empty, ↓reduceIte, Exec.ok_bind, Exec.pure_eq_ok,
          (order choices rfl).insertionSort_eq]
  | continuous min max typeEq opsEq uEq =>
      simp only at typeEq opsEq uEq uuidEq
      subst typeEq opsEq uEq
      simp [msgActuatorNew, Actuator.limits, setClientid, actuatorTypeDiscrete,
        actuatorTypeContinuous, uuidEq, clientEq] at encoded
      subst encoded
      simp [Actuator.updateFrommsg, MsgActuator.continuous, setClientid, Actuator.setValue, uuidEq,
        clientEq, actuatorTypeDiscrete, actuatorTypeContinuous, Actuator.continuousSetLimits]

end Actuator

namespace Object

theorem Built.canonical {object : Object} (built : object.Built) : object.Canonical := by
  cases object with
  | slice object =>
      obtain ⟨name, rfl⟩ := built
      exact stringFromchar_nulFree name
  | sensor object =>
      obtain ⟨name, rfl⟩ := built
      exact stringFromchar_nulFree name
  | scope object =>
      obtain ⟨name, cpu, numa, gpu, rfl⟩ := built
      exact stringFromchar_nulFree name
  | actuator object => exact Actuator.Built.canonical built

theorem Canonical.consistent {object : Object} (canonical : object.Canonical) :
    object.Consistent := by
  cases object with
  | slice object => trivial
  | sensor object => trivial
  | scope object => trivial
  | actuator object => exact Actuator.Canonical.consistent canonical

@[simp] theorem type_ownedBy (clientid : NrmString) (object : Object) :
    (object.ownedBy clientid).type = object.type := by
  cases object <;> rfl

@[simp] theorem uuid_ownedBy (clientid : NrmString) (object : Object) :
    (object.ownedBy clientid).uuid = object.uuid := by
  cases object <;> rfl

theorem Canonical.object_of_addMsg {object : Object} (canonical : object.Canonical)
    {clientid : NrmString} (free : NulFree clientid) {add : MsgAdd}
    (encoded : object.addMsg = .ok ⟨MsgType.add.toInt, some (.add add)⟩) :
    add.object clientid = some (object.ownedBy clientid) := by
  have carried := canonical.carried encoded
  cases object with
  | slice object =>
      cases encoded
      exact Except.ok.inj carried
  | sensor object =>
      cases encoded
      exact Except.ok.inj carried
  | scope object =>
      cases encoded
      exact Except.ok.inj carried
  | actuator object =>
      obtain ⟨payload, built, _⟩ := (Actuator.Canonical.consistent canonical).msgActuatorNew
      simp only [addMsg, Msg.setAddActuator, built, Exec.ok_bind, Exec.pure_eq_ok, Except.ok.injEq,
        Msg.mk.injEq, Option.some.injEq, MsgData.add.injEq] at encoded
      rw [← encoded.2]
      simp only [MsgAdd.object, ownedBy, Actuator.Canonical.roundTrip canonical built,
        stringFromchar_of_nulFree free]

theorem Canonical.updateFrommsg {object : Object} (canonical : object.Canonical)
    {clientid : NrmString} (free : NulFree clientid) {add : MsgAdd}
    (encoded : (object.ownedBy clientid).addMsg = .ok ⟨MsgType.add.toInt, some (.add add)⟩) :
    object.updateFrommsg add = .ok (object.ownedBy clientid) := by
  cases object with
  | slice object =>
      cases encoded
      rfl
  | sensor object =>
      cases encoded
      rfl
  | scope object =>
      cases encoded
      simp only [Object.updateFrommsg, MsgAdd.scope, Exec.ok_bind, scopeUpdateFrommsg, msgScopeNew,
        Bitmap.fromArray_toArray, Exec.pure_eq_ok]
      rfl
  | actuator object =>
      have owned := (Actuator.Canonical.consistent canonical).setClientid clientid
      obtain ⟨payload, built, _⟩ := owned.msgActuatorNew
      simp only [ownedBy, addMsg, Msg.setAddActuator, built, Exec.ok_bind, Exec.pure_eq_ok,
        Except.ok.injEq, Msg.mk.injEq, Option.some.injEq, MsgData.add.injEq] at encoded
      rw [← encoded.2]
      simp only [Object.updateFrommsg, MsgAdd.actuator, Exec.ok_bind,
        Actuator.Canonical.updateFrommsg canonical free built, Exec.pure_eq_ok, ownedBy]

end Object

/-- Decoding inverts encoding for everything a client can build, and an object
registered under a free uuid comes back to the client as it was sent, with an
actuator now carrying the identity of the client. -/
theorem codecs_inverse :
    (∀ actuator : Actuator, actuator.Built → ∃ payload, msgActuatorNew actuator = .ok payload ∧
      Actuator.createFrommsg (some payload) = .ok (some actuator)) ∧
    (∀ name cpu numa gpu, ∃ scope,
      scope = { scopeCreate name with cpu := cpu, numa := numa, gpu := gpu } ∧
      scopeCreateFrommsg (some (msgScopeNew scope)) = some scope) ∧
    (∀ name, sensorCreateFrommsg (some (msgSensorNew (sensorCreate name).uuid)) =
      some (sensorCreate name)) ∧
    (∀ name, sliceCreateFrommsg (some (msgSliceNew (sliceCreate name).uuid)) =
      some (sliceCreate name)) ∧
    (∀ (U E : Type) (callbacks : UserCallbacks U E) (self : Server U) (clientid : NrmString)
        (frame : List UInt8) (env : E) (object : Object), object.Built → NulFree clientid →
      self.state.find object.type object.uuid = none →
      ∃ sent reply, (Call.add object).request = .ok (some sent) ∧
        self.roleCallback callbacks ⟨clientid, some sent, frame, env⟩ =
          .ok ⟨0, { self with state := self.state.append (object.ownedBy clientid) },
            [.send clientid reply]⟩ ∧
        (Call.add object).finish reply = .ok (.updated (object.ownedBy clientid))) := by
  refine ⟨?_, ?_, ?_, ?_, ?_⟩
  · intro actuator built
    obtain ⟨payload, encoded, wellFormed⟩ := built.canonical.consistent.msgActuatorNew
    refine ⟨payload, encoded, ?_⟩
    rw [wellFormed.createFrommsg, built.canonical.roundTrip encoded]
  · intro name cpu numa gpu
    refine ⟨_, rfl, ?_⟩
    exact congrArg some (msgScopeNew_decoded (stringFromchar_nulFree name))
  · intro name
    simp [sensorCreateFrommsg, msgSensorNew, sensorCreate]
  · intro name
    simp [sliceCreateFrommsg, msgSliceNew, sliceCreate]
  · intro U E callbacks self clientid frame env object built free absent
    have canonical := built.canonical
    obtain ⟨add, encoded, wellFormed, _⟩ := canonical.consistent.addMsg
    obtain ⟨answer, replied, _, answerType, handled⟩ :=
      self.addCallback_spec clientid wellFormed (canonical.object_of_addMsg free encoded)
    refine ⟨⟨MsgType.add.toInt, some (.add add)⟩, ⟨MsgType.add.toInt, some (.add answer)⟩, ?_, ?_, ?_⟩
    · simp only [Call.request, encoded, Exec.ok_bind, Exec.pure_eq_ok]
    · rw [self.roleCallback_of_wellFormed callbacks rfl (.add add rfl rfl wellFormed)]
      simp only [MsgType.ofInt?_toInt, Msg.add, Exec.ok_bind, handled]
      rw [State.store_of_absent (by simpa using absent)]
    · simp only [Call.finish, Msg.add, Exec.ok_bind, deref_some, answerType, Object.type_ownedBy,
        decide_true, assert_true, canonical.updateFrommsg free replied, Exec.pure_eq_ok]

/-- Client `A` registers a discrete actuator `a` that it gave the choices 2 and 1. -/
theorem codecs_inverse_sample :
    ∃ actuator sent outcome reply, actuator.u = .choices [1, 2] ∧
      (Call.add (.actuator actuator)).request = .ok (some sent) ∧
      Nrmd.fresh.roleCallback (Nrmd.callbacks ⟨fun _ => 1, fun _ => 0⟩)
        ⟨[65], some sent, [], Nrmd.noEnv⟩ = .ok outcome ∧
      outcome.emitted = [.send [65] reply] ∧
      (Call.add (.actuator actuator)).finish reply =
        .ok (.updated (.actuator (actuator.setClientid [65]))) := by
  obtain ⟨actuator, set, sorted, uuid⟩ : ∃ actuator,
      (Actuator.discreteCreate [97]).discreteSetChoices [2, 1] = .ok (0, actuator) ∧
        actuator.u = .choices [1, 2] ∧ actuator.uuid = [97] := ⟨_, rfl, by decide +kernel, rfl⟩
  have built : actuator.Built := .setChoices [2, 1] (.discreteCreate [97]) rfl set
  obtain ⟨sent, reply, requested, handled, finished⟩ :=
    codecs_inverse.2.2.2.2 Daemon TickEnv (Nrmd.callbacks ⟨fun _ => 1, fun _ => 0⟩) Nrmd.fresh [65]
      [] Nrmd.noEnv (.actuator actuator) built (by decide)
      (by simp only [Object.type, Object.uuid, uuid]; rfl)
  exact ⟨actuator, sent, _, reply, sorted, requested, handled, rfl, finished⟩

end LibNrm
