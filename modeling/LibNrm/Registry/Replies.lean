import LibNrm.Messages.RoundTrip
import LibNrm.Registry.Refinement

namespace LibNrm

/-- The object a client decodes from the payload of an ADD reply. -/
def MsgAdd.carried (msg : MsgAdd) : Exec (Option Object) :=
  match msg.data with
  | none => .ok none
  | some (.slice slice) => .ok ((sliceCreateFrommsg (some slice)).map .slice)
  | some (.sensor sensor) => .ok ((sensorCreateFrommsg (some sensor)).map .sensor)
  | some (.scope scope) => .ok ((scopeCreateFrommsg (some scope)).map .scope)
  | some (.actuator actuator) => do
      let actuator ← Actuator.createFrommsg (some actuator)
      pure (actuator.map .actuator)

def Object.Canonical : Object → Prop
  | .slice object => NulFree object.uuid
  | .sensor object => NulFree object.uuid
  | .scope object => NulFree object.uuid
  | .actuator object => object.Canonical

theorem MsgAdd.WellFormed.object_canonical {msg : MsgAdd} (wellFormed : msg.WellFormed)
    {clientid : NrmString} {object : Object} (decoded : msg.object clientid = some object) :
    object.Canonical := by
  cases wellFormed with
  | slice slice type data =>
      simp only [MsgAdd.object, data, sliceCreateFrommsg, Option.map_some, Option.some.injEq] at decoded
      subst decoded
      exact stringFromchar_nulFree _
  | sensor sensor type data =>
      simp only [MsgAdd.object, data, sensorCreateFrommsg, Option.map_some, Option.some.injEq] at decoded
      subst decoded
      exact stringFromchar_nulFree _
  | scope scope type data =>
      simp only [MsgAdd.object, data, scopeCreateFrommsg, Option.map_some, Option.some.injEq] at decoded
      subst decoded
      exact stringFromchar_nulFree _
  | actuator actuator type data inner =>
      simp only [MsgAdd.object, data, Option.some.injEq] at decoded
      subst decoded
      have canonical := inner.decoded_canonical
      refine ⟨canonical.consistent.setClientid _, canonical.uuid, ?_, canonical.sorted⟩
      intro owner owned
      simp only [Actuator.setClientid, Option.some.injEq] at owned
      subst owned
      exact stringFromchar_nulFree _

theorem Object.Canonical.carried {object : Object} (canonical : object.Canonical) {add : MsgAdd}
    (encoded : object.addMsg = .ok ⟨MsgType.add.toInt, some (.add add)⟩) :
    add.carried = .ok (some object) := by
  cases object with
  | slice object =>
      cases encoded
      simp only [MsgAdd.carried, sliceCreateFrommsg, msgSliceNew, sliceCreate, Option.map_some,
        stringFromchar_idem]
      rw [stringFromchar_of_nulFree canonical]
  | sensor object =>
      cases encoded
      simp only [MsgAdd.carried, sensorCreateFrommsg, msgSensorNew, sensorCreate, Option.map_some,
        stringFromchar_idem]
      rw [stringFromchar_of_nulFree canonical]
  | scope object =>
      cases encoded
      simp only [MsgAdd.carried, scopeCreateFrommsg, Option.map_some]
      rw [msgScopeNew_decoded canonical]
  | actuator object =>
      obtain ⟨payload, built, wellFormed⟩ := canonical.consistent.msgActuatorNew
      simp only [Object.addMsg, Msg.setAddActuator, built, Exec.ok_bind, Exec.pure_eq_ok,
        Except.ok.injEq, Msg.mk.injEq, Option.some.injEq, MsgData.add.injEq] at encoded
      rw [← encoded.2]
      simp only [MsgAdd.carried, wellFormed.createFrommsg, Exec.ok_bind, Exec.pure_eq_ok,
        Option.map_some, canonical.roundTrip built]

theorem State.find_append_self {state : State} {object : Object}
    (absent : state.find object.type object.uuid = none) :
    (state.append object).find object.type object.uuid = some object := by
  cases object <;>
    simp only [State.find, Object.type, Object.uuid, Option.map_eq_none_iff] at absent <;>
    simp only [State.append, State.find, Object.type, Object.uuid,
      Data.Table.lookup_append_self _ absent, Option.map_some]

namespace Server

variable {U : Type}

/-- An ADD reply to the requester carries an object that is registered as it is. -/
def Truthful (self : Server U) (clientid : NrmString) (msg : MsgAdd) : Prop :=
  ∀ outcome add, self.addCallback clientid (some msg) = .ok outcome →
    .send clientid ⟨MsgType.add.toInt, some (.add add)⟩ ∈ outcome.emitted →
    ∃ object, add.carried = .ok (some object) ∧
      outcome.server.state.find object.type object.uuid = some object

/-- Every well-formed ADD is answered with an ADD, and the answer is the truth
exactly when the uuid was free or the object registered under it is the same. -/
theorem truthful_iff (self : Server U) (clientid : NrmString) {msg : MsgAdd} {object : Object}
    (wellFormed : msg.WellFormed) (decoded : msg.object clientid = some object) :
    self.Truthful clientid msg ↔
      self.state.find object.type object.uuid = none ∨
        self.state.find object.type object.uuid = some object := by
  have canonical := wellFormed.object_canonical decoded
  obtain ⟨add, encoded, _, _, handled⟩ := self.addCallback_spec clientid wellFormed decoded
  have carried := canonical.carried encoded
  constructor
  · intro truthful
    obtain ⟨other, claimed, found⟩ := truthful _ add handled List.mem_cons_self
    cases carried.symm.trans claimed
    cases before : self.state.find object.type object.uuid with
    | none => exact .inl rfl
    | some old =>
        simp only [State.store_of_present before] at found
        exact .inr (before.symm.trans found)
  · intro free outcome reply answered sent
    cases handled.symm.trans answered
    rw [List.mem_singleton] at sent
    cases sent
    refine ⟨object, carried, ?_⟩
    rcases free with absent | same
    · simp only [State.store_of_absent absent]
      exact State.find_append_self absent
    · simp only [State.store_of_present same]
      exact same

theorem truthful_iff_first_scope :
    Nrmd.fresh.Truthful [65] ⟨2, some (.scope ⟨[103], [0], [], []⟩)⟩ :=
  (truthful_iff Nrmd.fresh [65] (.scope _ rfl rfl) rfl).mpr (.inl rfl)

/-- Client `A` registers scope `g` with cpu 0; client `B` asks for `g` with cpu
1 and is told that it got it. -/
theorem second_scope_untruthful :
    ∃ server, Data.run (Nrmd.handle ⟨fun _ => 1, fun _ => 0⟩) Nrmd.fresh
        [Nrmd.inboundAdd [65] ⟨2, some (.scope ⟨[103], [0], [], []⟩)⟩] = .ok server ∧
      ¬ server.Truthful [66] ⟨2, some (.scope ⟨[103], [1], [], []⟩)⟩ := by
  refine ⟨_, rfl, ?_⟩
  intro truthful
  obtain ⟨object, claimed, found⟩ := truthful _
    ⟨2, some (.scope (msgScopeNew (MsgScope.decoded ⟨[103], [1], [], []⟩)))⟩ rfl List.mem_cons_self
  cases claimed
  revert found
  decide +kernel

end Server

end LibNrm
