import LibNrm.Registry.Refinement

namespace LibNrm

/-! `nrm_hash_remove` looks for the bytes at the address of its parameter instead of
the string the parameter points to, and hands the freed hash element to its
caller.  So a removal does what it should only when there is nothing to remove, and
then only when the stack goes on for as long as the uuid.
-/

namespace State

def erase (state : State) : TargetType → NrmString → State
  | .slice, uuid => { state with slices := state.slices.erase uuid }
  | .sensor, uuid => { state with sensors := state.sensors.erase uuid }
  | .scope, uuid => { state with scopes := state.scopes.erase uuid }
  | .actuator, uuid => { state with actuators := state.actuators.erase uuid }

/-- The four `nrm_state_remove_x`, with the object that was released. -/
def remove (frame : List UInt8) (state : State) (uuid : List UInt8) :
    TargetType → Exec (State × Option Object)
  | .slice => do
      let (state, released) ← state.removeSlice frame uuid
      pure (state, released.map .slice)
  | .sensor => do
      let (state, released) ← state.removeSensor frame uuid
      pure (state, released.map .sensor)
  | .scope => do
      let (state, released) ← state.removeScope frame uuid
      pure (state, released.map .scope)
  | .actuator => do
      let (state, released) ← state.removeActuator frame uuid
      pure (state, released.map .actuator)

/-- The removal of this type finds nothing. -/
def Misses (frame : List UInt8) (state : State) : TargetType → NrmString → Prop
  | .slice, uuid => state.slices.Misses frame uuid
  | .sensor, uuid => state.sensors.Misses frame uuid
  | .scope, uuid => state.scopes.Misses frame uuid
  | .actuator, uuid => state.actuators.Misses frame uuid

instance (frame : List UInt8) (state : State) (target : TargetType) (uuid : NrmString) :
    Decidable (state.Misses frame target uuid) := by
  cases target <;> exact inferInstanceAs (Decidable (Hash.Misses _ _ _))

theorem removeWith_of_misses {α : Type} (destroy : Ptr α → Exec (Option α)) {frame : List UInt8}
    {table : Hash α} {uuid : List UInt8} (misses : table.Misses frame (stringFromchar uuid)) :
    removeWith destroy frame table uuid =
      (destroy .null >>= fun released => pure (table, released)) := by
  rcases table.remove_cases frame (stringFromchar uuid) with
    ⟨_, code, unchanged⟩ | ⟨hits, _⟩ | ⟨hits, _⟩
  · simp only [removeWith, unchanged, Exec.ok_bind]
  · exact absurd misses hits
  · exact absurd misses hits

theorem removeWith_of_hits {α : Type} (destroy : Ptr α → Exec (Option α)) {frame : List UInt8}
    {table : Hash α} {uuid : List UInt8} (dangling : destroy .freedElement = .error .danglingPointer)
    (hits : ¬ table.Misses frame (stringFromchar uuid)) :
    ∃ fault, removeWith destroy frame table uuid = .error fault := by
  rcases table.remove_cases frame (stringFromchar uuid) with
    ⟨misses, _⟩ | ⟨_, code, after, freed⟩ | ⟨_, unmapped⟩
  · exact absurd misses hits
  · exact ⟨.danglingPointer, by simp only [removeWith, freed, Exec.ok_bind, dangling, Exec.error_bind]⟩
  · exact ⟨.unmapped, by simp only [removeWith, unmapped, Exec.error_bind]⟩

/-- When the bytes on the stack are no key nothing is removed, and for a scope NULL is
followed. -/
theorem remove_of_misses {frame : List UInt8} {state : State} {uuid : List UInt8}
    {target : TargetType} (misses : state.Misses frame target (stringFromchar uuid)) :
    state.remove frame uuid target =
      if target = .scope then .error .nullDereference else .ok (state, none) := by
  cases target with
  | slice => simp [remove, removeSlice, removeWith_of_misses _ misses, sliceDestroy, destroyUnlessNull]
  | sensor => simp [remove, removeSensor, removeWith_of_misses _ misses, sensorDestroy, destroyUnlessNull]
  | scope => simp [remove, removeScope, removeWith_of_misses _ misses, scopeDestroy]
  | actuator => simp [remove, removeActuator, removeWith_of_misses _ misses, Actuator.destroy]

/-- When they are one, or when the stack ends before them, the daemon does not survive. -/
theorem remove_of_hits {frame : List UInt8} {state : State} {uuid : List UInt8}
    {target : TargetType} (hits : ¬ state.Misses frame target (stringFromchar uuid)) :
    ∃ fault, state.remove frame uuid target = .error fault := by
  cases target with
  | slice =>
      obtain ⟨fault, failed⟩ := removeWith_of_hits sliceDestroy rfl hits
      exact ⟨fault, by simp [remove, removeSlice, failed]⟩
  | sensor =>
      obtain ⟨fault, failed⟩ := removeWith_of_hits sensorDestroy rfl hits
      exact ⟨fault, by simp [remove, removeSensor, failed]⟩
  | scope =>
      obtain ⟨fault, failed⟩ := removeWith_of_hits scopeDestroy rfl hits
      exact ⟨fault, by simp [remove, removeScope, failed]⟩
  | actuator =>
      obtain ⟨fault, failed⟩ := removeWith_of_hits Actuator.destroy rfl hits
      exact ⟨fault, by simp [remove, removeActuator, failed]⟩

theorem remove_eq_ok {frame : List UInt8} {state after : State} {uuid : List UInt8}
    {target : TargetType} {released : Option Object}
    (removed : state.remove frame uuid target = .ok (after, released)) :
    target ≠ .scope ∧ state.Misses frame target (stringFromchar uuid) ∧ after = state ∧
      released = none := by
  by_cases misses : state.Misses frame target (stringFromchar uuid)
  · rw [remove_of_misses misses] at removed
    split at removed
    · cases removed
    · rename_i other
      cases removed
      exact ⟨other, misses, rfl, rfl⟩
  · obtain ⟨fault, failed⟩ := remove_of_hits misses
    cases failed.symm.trans removed

theorem erase_eq_self_iff (state : State) (target : TargetType) (uuid : NrmString) :
    state.erase target uuid = state ↔ state.find target uuid = none := by
  have table {α : Type} (table : Hash α) : table.erase uuid = table ↔ table.lookup uuid = none := by
    constructor
    · intro same
      cases found : table.lookup uuid with
      | none => rfl
      | some old => exact absurd same (Data.Table.erase_ne_self found)
    · exact Data.Table.erase_of_lookup_none
  obtain ⟨actuators, scopes, sensors, slices⟩ := state
  cases target <;> simp [erase, find, table]

end State

namespace Server

variable {U : Type}

theorem removeCallback_eq (frame : List UInt8) (self : Server U) (clientid : NrmString)
    (target : TargetType) (uuid : List UInt8) :
    self.removeCallback frame clientid (some ⟨target.toInt, uuid⟩) =
      (self.state.remove frame uuid target >>= fun (state, _) =>
        .ok ⟨0, { self with state := state }, [.send clientid (Msg.fill .ack)]⟩) := by
  have answered (server : Server U) : reply clientid (Msg.fill .ack, server) =
      .ok ⟨0, server, [.send clientid (Msg.fill .ack)]⟩ := by
    have printed : logPrintmsg server.logLevel (some (Msg.fill .ack)) = .ok () :=
      logPrintmsg_of_toJson rfl
    simp [reply, printed]
  simp only [removeCallback, deref_some, Exec.ok_bind, TargetType.ofInt?_toInt]
  cases target with
  | slice =>
      simp only [removeSlice, removeWith, State.remove]
      cases self.state.removeSlice frame uuid <;> simp [answered]
  | sensor =>
      simp only [removeSensor, removeWith, State.remove]
      cases self.state.removeSensor frame uuid <;> simp [answered]
  | scope =>
      simp only [removeScope, removeWith, State.remove]
      cases self.state.removeScope frame uuid <;> simp [answered]
  | actuator =>
      simp only [removeActuator, removeWith, State.remove]
      cases self.state.removeActuator frame uuid <;> simp [answered]

/-- What a removal is for: it completes, acknowledges, deletes the entry and
nothing else, and releases the object that was stored there. -/
def Removes (frame : List UInt8) (self : Server U) (clientid : NrmString) (target : TargetType)
    (uuid : List UInt8) : Prop :=
  ∃ outcome, self.removeCallback frame clientid (some ⟨target.toInt, uuid⟩) = .ok outcome ∧
    outcome.emitted = [.send clientid (Msg.fill .ack)] ∧
    outcome.server.state = self.state.erase target (stringFromchar uuid) ∧
    self.state.remove frame uuid target =
      .ok (outcome.server.state, self.state.find target (stringFromchar uuid)) ∧
    outcome.server.state.find target (stringFromchar uuid) = none

/-- A removal does that exactly when the type is not scope, the uuid is not registered, and
the table is empty or the bytes on the stack, all of them mapped, are none of its keys. -/
theorem removes_iff (self : Server U) (frame : List UInt8) (clientid : NrmString)
    (target : TargetType) (uuid : List UInt8) :
    self.Removes frame clientid target uuid ↔
      target ≠ .scope ∧ self.state.find target (stringFromchar uuid) = none ∧
        self.state.Misses frame target (stringFromchar uuid) := by
  constructor
  · rintro ⟨outcome, _, _, _, released, _⟩
    obtain ⟨notScope, misses, _, absent⟩ := State.remove_eq_ok released
    exact ⟨notScope, absent, misses⟩
  · rintro ⟨notScope, absent, misses⟩
    have removed := State.remove_of_misses misses
    simp only [notScope, ↓reduceIte] at removed
    refine ⟨⟨0, self, [.send clientid (Msg.fill .ack)]⟩, ?_, rfl, ?_, ?_, absent⟩
    · rw [removeCallback_eq, removed]
      rfl
    · exact ((self.state.erase_eq_self_iff target _).mpr absent).symm
    · rw [removed, absent]

/-- A sensor is added and then removed: the removal is acknowledged and the
sensor is still there. -/
theorem removal_leaves_sensor :
    ∃ server, Data.run (Nrmd.handle ⟨fun _ => 1, fun _ => 0⟩) Nrmd.fresh
        [Nrmd.inboundAdd [65] ⟨1, some (.sensor ⟨[115]⟩)⟩] = .ok server ∧
      ¬ server.Removes [24, 2, 109, 86, 85, 85, 0, 0] [65] .sensor [115] := by
  refine ⟨_, rfl, ?_⟩
  rintro ⟨outcome, _, _, _, released, _⟩
  have kept : (State.create.append (.sensor ⟨[115]⟩)).remove [24, 2, 109, 86, 85, 85, 0, 0] [115]
      .sensor = .ok (State.create.append (.sensor ⟨[115]⟩), none) := rfl
  have same := kept.symm.trans released
  simp only [Except.ok.injEq, Prod.mk.injEq] at same
  exact absurd same.2.symm (by decide)

end Server

end LibNrm
