import LibNrm.Server.Steps

namespace LibNrm

/-- A request about objects that are of none of the four types. -/
def Msg.Untargeted (msg : Msg) : Prop :=
  match MsgType.ofInt? msg.type, msg.data with
  | some .add, some (.add add) => TargetType.ofInt? add.type = none
  | some .list, some (.list list) => TargetType.ofInt? list.type = none
  | some .remove, some (.remove remove) => TargetType.ofInt? remove.type = none
  | _, _ => False

theorem Msg.Untargeted.toJson {msg : Msg} (untargeted : msg.Untargeted) : msg.toJson = .ok () := by
  obtain ⟨type, data⟩ := msg
  simp only [Untargeted] at untargeted
  split at untargeted
  · rename_i known
    simp [Msg.toJson, known, Msg.add, MsgAdd.toJson, untargeted]
  · rename_i known
    simp [Msg.toJson, known, Msg.list, MsgList.toJson, untargeted]
  · rename_i known
    simp [Msg.toJson, known, Msg.remove]
  · exact untargeted.elim

theorem Msg.Untargeted.not_exit {msg : Msg} (untargeted : msg.Untargeted) :
    msg.type ≠ MsgType.exit.toInt := by
  intro exit
  simp [Untargeted, exit] at untargeted

namespace Server

variable {U E : Type} {callbacks : UserCallbacks U E}

def Stops (handled : Exec (Outcome U)) : Prop := ∃ outcome, handled = .ok outcome ∧ outcome.code = -1

/-- The user's tick callback, where there is one, only ever returns 0. -/
def TicksWithZero (callbacks : UserCallbacks U E) : Prop :=
  ∀ tick, callbacks.tick = some tick → ∀ env server outcome,
    tick env server = .ok outcome → outcome.code = 0

theorem stops_of_untargeted (callbacks : UserCallbacks U E) (self : Server U) {inbound : Inbound E}
    {msg : Msg} (received : inbound.msg = some msg) (untargeted : msg.Untargeted) :
    Stops (self.roleCallback callbacks inbound) := by
  have printed : logPrintmsg self.logLevel (some msg) = .ok () :=
    logPrintmsg_of_toJson untargeted.toJson
  refine ⟨⟨-1, self, []⟩, ?_, rfl⟩
  simp only [roleCallback, received, printed, Exec.ok_bind, deref_some]
  obtain ⟨type, data⟩ := msg
  simp only [Msg.Untargeted] at untargeted
  split at untargeted
  · rename_i known
    simp [known, Msg.add, addCallback, untargeted]
  · rename_i known
    simp [known, Msg.list, listCallback, untargeted]
  · rename_i known
    simp [known, Msg.remove, removeCallback, untargeted]
  · exact untargeted.elim

/-- Of the messages that return -1, those that are no EXIT name no type of object. -/
theorem untargeted_of_stops (calm : TicksWithZero callbacks) {self : Server U} {inbound : Inbound E}
    {msg : Msg} (received : inbound.msg = some msg) (notExit : msg.type ≠ MsgType.exit.toInt)
    (stops : Stops (self.roleCallback callbacks inbound)) : msg.Untargeted := by
  obtain ⟨outcome, returned, code⟩ := stops
  cases roleCallback_handled returned with
  | actuate actuate same handled =>
      rcases actuateCallback_cases handled with rfl | ⟨_, _, _, rfl⟩ <;> simp at code
  | list list same handled =>
      cases received.symm.trans same
      rcases listCallback_cases handled with ⟨unknown, _⟩ | ⟨_, _, _, rfl⟩
      · simpa [Msg.Untargeted] using unknown
      · simp at code
  | add add same handled =>
      cases received.symm.trans same
      rcases addCallback_cases handled with ⟨unknown, _⟩ | ⟨_, _, _, _, _, _, _, rfl⟩
      · simpa [Msg.Untargeted] using unknown
      · simp at code
  | events series same handled =>
      obtain ⟨_, _, _, rfl⟩ := eventsCallback_cases handled
      simp at code
  | remove remove same handled =>
      cases received.symm.trans same
      rcases removeCallback_cases handled with ⟨unknown, _⟩ | ⟨_, _, rfl⟩
      · simpa [Msg.Untargeted] using unknown
      · simp at code
  | exit other same type handled =>
      cases received.symm.trans same
      exact absurd type notExit
  | tick other same type handled =>
      rcases tickCallback_cases handled with ⟨_, rfl⟩ | ⟨tick, ticked, set, ticking, rfl⟩
      · simp at code
      · simp [calm tick set inbound.env self ticked ticking] at code
  | refused other same type handled =>
      subst handled
      simp [nrmEinval] at code

/-- Whatever the state of the server and whoever sends the message: it ends the
loop if and only if it is an EXIT, exactly when it is not a request to add, list
or remove objects of an unknown type. -/
theorem stops_iff_exit_iff (calm : TicksWithZero callbacks) (self : Server U) {inbound : Inbound E}
    {msg : Msg} (received : inbound.msg = some msg) :
    (Stops (self.roleCallback callbacks inbound) ↔ msg.type = MsgType.exit.toInt) ↔
      ¬ msg.Untargeted := by
  constructor
  · intro agrees untargeted
    exact untargeted.not_exit (agrees.mp (stops_of_untargeted callbacks self received untargeted))
  · intro targeted
    constructor
    · intro stops
      by_contra notExit
      exact targeted (untargeted_of_stops calm received notExit stops)
    · intro exit
      have printed : logPrintmsg self.logLevel (some msg) = .ok () :=
        logPrintmsg_of_toJson (by simp [Msg.toJson, exit])
      refine ⟨self.exitCallback inbound.clientid, ?_, rfl⟩
      simp only [roleCallback, received, printed, exit, Exec.ok_bind, deref_some,
        MsgType.ofInt?_toInt, Exec.pure_eq_ok]

end Server

theorem Nrmd.callbacks_tickWithZero (libm : Libm ℚ) : Server.TicksWithZero (callbacks libm) := by
  intro tick set env server outcome ticked
  cases set
  simp only [tickCallback] at ticked
  split at ticked
  · cases ticked
    rfl
  · obtain ⟨_, _, done⟩ := Exec.bind_eq_ok.mp ticked
    cases done
    rfl

namespace Server

/-- An EXIT ends the daemon and a request to list the sensors does not. -/
theorem stops_iff_exit_iff_sample :
    Stops (Nrmd.fresh.roleCallback (Nrmd.callbacks ⟨fun _ => 1, fun _ => 0⟩)
        ⟨[65], some ⟨6, none⟩, [], Nrmd.noEnv⟩) ∧
      ¬ Stops (Nrmd.fresh.roleCallback (Nrmd.callbacks ⟨fun _ => 1, fun _ => 0⟩)
        ⟨[65], some ⟨1, some (.list ⟨1, none⟩)⟩, [], Nrmd.noEnv⟩) := by
  have calm := Nrmd.callbacks_tickWithZero ⟨fun _ => 1, fun _ => 0⟩
  refine ⟨((stops_iff_exit_iff calm Nrmd.fresh rfl).mpr ?_).mpr rfl, fun stops => ?_⟩
  · simp [Msg.Untargeted, MsgType.ofInt?]
  · have targeted : ¬ Msg.Untargeted ⟨1, some (.list ⟨1, none⟩)⟩ := by
      simp [Msg.Untargeted, MsgType.ofInt?, TargetType.ofInt?]
    exact absurd (((stops_iff_exit_iff calm Nrmd.fresh rfl).mpr targeted).mp stops) (by decide)

/-- A client that asks for a list of target type 4 ends the daemon. -/
theorem unknown_target_stops :
    Stops (Nrmd.fresh.roleCallback (Nrmd.callbacks ⟨fun _ => 1, fun _ => 0⟩)
        ⟨[65], some ⟨MsgType.list.toInt, some (.list ⟨4, none⟩)⟩, [], Nrmd.noEnv⟩) ∧
      MsgType.list.toInt ≠ MsgType.exit.toInt :=
  ⟨⟨_, rfl, rfl⟩, by decide⟩

end Server

end LibNrm
