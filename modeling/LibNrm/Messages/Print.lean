import LibNrm.Messages

namespace LibNrm

/-! At debug level `nrm_log_printmsg` turns the whole message into JSON text for
the log.  Nothing reads that text back, so only the pointers the converters
follow are kept: each `toJson` here is the `nrm_msg_x_to_json` it is named
after, up to the text it returns.
-/

def MsgActuator.toJson (msg : MsgActuator) : Exec Unit :=
  if msg.type = actuatorTypeDiscrete then do
    let _ ← deref (← msg.discrete)
    pure ()
  else if msg.type = actuatorTypeContinuous then do
    let _ ← deref (← msg.continuous)
    pure ()
  else pure ()

def MsgTimeserie.toJson (msg : MsgTimeserie) : Exec Unit := do
  let _ ← deref msg.scope
  pure ()

def MsgAdd.toJson (msg : MsgAdd) : Exec Unit :=
  match TargetType.ofInt? msg.type with
  | some .actuator => do
      let actuator ← deref (← msg.actuator)
      actuator.toJson
  | some .slice => do
      let _ ← deref (← msg.slice)
      pure ()
  | some .sensor => do
      let _ ← deref (← msg.sensor)
      pure ()
  | some .scope => do
      let _ ← deref (← msg.scope)
      pure ()
  | none => pure ()

def MsgList.toJson (msg : MsgList) : Exec Unit :=
  match TargetType.ofInt? msg.type with
  | some .actuator => do
      let actuators ← deref (← msg.actuators)
      actuators.forM MsgActuator.toJson
  | some .slice => do
      let _ ← deref (← msg.slices)
      pure ()
  | some .sensor => do
      let _ ← deref (← msg.sensors)
      pure ()
  | some .scope => do
      let _ ← deref (← msg.scopes)
      pure ()
  | none => pure ()

def Msg.toJson (msg : Msg) : Exec Unit :=
  match MsgType.ofInt? msg.type with
  | some .actuate => do
      let _ ← deref (← msg.actuate)
      pure ()
  | some .add => do
      let add ← deref (← msg.add)
      add.toJson
  | some .list => do
      let list ← deref (← msg.list)
      list.toJson
  | some .events => do
      let series ← deref (← msg.events)
      series.forM MsgTimeserie.toJson
  | some .remove => do
      let _ ← deref (← msg.remove)
      pure ()
  | _ => pure ()

/-- `NRM_LOG_DEBUG` -/
def logDebug : Int := 5

/-- `nrm_log_printmsg(NRM_LOG_DEBUG, msg)` under the given `nrm_log_level`. -/
def logPrintmsg (logLevel : Int) (msg : Option Msg) : Exec Unit :=
  if logDebug > logLevel then pure ()
  else
    match msg with
    | none => pure ()
    | some msg => msg.toJson

theorem forM_ok {items : List α} {action : α → Exec Unit}
    (each : ∀ item ∈ items, action item = .ok ()) : items.forM action = .ok () := by
  induction items with
  | nil => rfl
  | cons item rest ih =>
      have first := each item List.mem_cons_self
      have later := ih (fun item member => each item (List.mem_cons_of_mem _ member))
      change (action item >>= fun _ => rest.forM action) = .ok ()
      simp only [first, Exec.ok_bind, later]

theorem forM_completes_iff {items : List α} {action : α → Exec Unit} :
    (items.forM action).Completes ↔ ∀ item ∈ items, (action item).Completes := by
  induction items with
  | nil =>
      have empty : ([] : List α).forM action = .ok () := rfl
      simp [empty]
  | cons item rest ih =>
      change (action item >>= fun _ => rest.forM action).Completes ↔ _
      rw [Exec.completes_bind, List.forall_mem_cons, ← ih]
      constructor
      · rintro ⟨result, first, later⟩
        exact ⟨⟨result, first⟩, later⟩
      · rintro ⟨⟨result, first⟩, later⟩
        exact ⟨result, first, later⟩

theorem MsgActuator.WellFormed.toJson {msg : MsgActuator} (wellFormed : msg.WellFormed) :
    msg.toJson = .ok () := by
  cases wellFormed with
  | discrete choices type data =>
      simp [MsgActuator.toJson, type, MsgActuator.discrete, data]
  | continuous lmin lmax type data =>
      simp [MsgActuator.toJson, type, actuatorTypeContinuous, actuatorTypeDiscrete,
        MsgActuator.continuous, data]

theorem MsgAdd.WellFormed.toJson {msg : MsgAdd} (wellFormed : msg.WellFormed) :
    msg.toJson = .ok () := by
  cases wellFormed with
  | slice slice type data => simp [MsgAdd.toJson, type, MsgAdd.slice, data]
  | sensor sensor type data => simp [MsgAdd.toJson, type, MsgAdd.sensor, data]
  | scope scope type data => simp [MsgAdd.toJson, type, MsgAdd.scope, data]
  | actuator actuator type data inner =>
      simp [MsgAdd.toJson, type, MsgAdd.actuator, data, inner.toJson]

theorem MsgList.WellFormed.toJson {msg : MsgList} (wellFormed : msg.WellFormed) :
    msg.toJson = .ok () := by
  cases wellFormed with
  | slice slices type data => simp [MsgList.toJson, type, MsgList.slices, data]
  | sensor sensors type data => simp [MsgList.toJson, type, MsgList.sensors, data]
  | scope scopes type data => simp [MsgList.toJson, type, MsgList.scopes, data]
  | actuator actuators type data inner =>
      have each := forM_ok fun actuator member => (inner actuator member).toJson
      simpa [MsgList.toJson, type, MsgList.actuators, data] using each

theorem Msg.WellFormed.toJson {msg : Msg} (wellFormed : msg.WellFormed) : msg.toJson = .ok () := by
  cases wellFormed with
  | actuate actuate type data => simp [Msg.toJson, type, Msg.actuate, data]
  | list list type data inner => simp [Msg.toJson, type, Msg.list, data, inner.toJson]
  | add add type data inner => simp [Msg.toJson, type, Msg.add, data, inner.toJson]
  | events series type data inner =>
      have each : series.forM MsgTimeserie.toJson = .ok () := by
        apply forM_ok
        intro ts member
        obtain ⟨scope, present⟩ := Option.isSome_iff_exists.mp (inner ts member)
        simp [MsgTimeserie.toJson, present]
      simpa [Msg.toJson, type, Msg.events, data] using each
  | remove remove target type data known => simp [Msg.toJson, type, Msg.remove, data]
  | tick type => simp [Msg.toJson, type]
  | exit type => simp [Msg.toJson, type]

theorem logPrintmsg_of_toJson {logLevel : Int} {msg : Msg} (printed : msg.toJson = .ok ()) :
    logPrintmsg logLevel (some msg) = .ok () := by
  unfold logPrintmsg
  split
  · rfl
  · exact printed

end LibNrm
