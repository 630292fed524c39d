import LibNrm.Registry.Removal

namespace LibNrm

/-! The other direction of `LibNrm.Server.Handlers`: nothing is assumed of the
message or of the state, only that the handler came to its end.  Each lemma lists
the outcomes its callback can have.
-/

theorem MsgType.ofInt?_eq_some {value : Int} {type : MsgType}
    (known : MsgType.ofInt? value = some type) : value = type.toInt := by
  simp only [MsgType.ofInt?] at known
  split at known <;> cases known <;> rfl

theorem TargetType.ofInt?_eq_some {value : Int} {target : TargetType}
    (known : TargetType.ofInt? value = some target) : value = target.toInt := by
  simp only [TargetType.ofInt?] at known
  split at known <;> cases known <;> rfl

/-- The state after an actuation of `uuid` that ended at `value`. -/
def State.setValue (state : State) (uuid : NrmString) (value : ℚ) : State :=
  { state with actuators := state.actuators.modify uuid fun a => a.setValue value }

namespace Server

variable {U E : Type} {callbacks : UserCallbacks U E} {self : Server U} {clientid : NrmString}
  {outcome : Outcome U}

theorem reply_eq_ok {ret : Msg} (handled : reply clientid (ret, self) = .ok outcome) :
    outcome = ⟨0, self, [.send clientid ret]⟩ := by
  obtain ⟨_, _, done⟩ := Exec.bind_eq_ok.mp handled
  cases done
  rfl

theorem addCallback_wellFormed {add : MsgAdd} {target : TargetType}
    (known : TargetType.ofInt? add.type = some target)
    (completed : (self.addCallback clientid (some add)).Completes) : add.WellFormed := by
  have type := TargetType.ofInt?_eq_some known
  obtain ⟨outcome, handled⟩ := completed
  simp only [addCallback, deref_some, Exec.ok_bind, known] at handled
  cases target with
  | slice =>
      rcases stored : add.data with _ | (slice | sensor | scope | actuator)
      · simp [MsgAdd.slice, stored, addSlice, addWith, sliceCreateFrommsg, State.addSlice] at handled
      · exact .slice slice type stored
      all_goals simp [MsgAdd.slice, stored] at handled
  | sensor =>
      rcases stored : add.data with _ | (slice | sensor | scope | actuator)
      · simp [MsgAdd.sensor, stored, addSensor, addWith, sensorCreateFrommsg, State.addSensor] at handled
      · simp [MsgAdd.sensor, stored] at handled
      · exact .sensor sensor type stored
      all_goals simp [MsgAdd.sensor, stored] at handled
  | scope =>
      rcases stored : add.data with _ | (slice | sensor | scope | actuator)
      · simp [MsgAdd.scope, stored, addScope, addWith, scopeCreateFrommsg, State.addScope] at handled
      · simp [MsgAdd.scope, stored] at handled
      · simp [MsgAdd.scope, stored] at handled
      · exact .scope scope type stored
      · simp [MsgAdd.scope, stored] at handled
  | actuator =>
      rcases stored : add.data with _ | (slice | sensor | scope | actuator)
      · simp [MsgAdd.actuator, stored, addActuator, Actuator.createFrommsg] at handled
      · simp [MsgAdd.actuator, stored] at handled
      · simp [MsgAdd.actuator, stored] at handled
      · simp [MsgAdd.actuator, stored] at handled
      · refine .actuator actuator type stored ?_
        simp only [MsgAdd.actuator, stored, Exec.ok_bind] at handled
        obtain ⟨added, adding, _⟩ := Exec.bind_eq_ok.mp handled
        obtain ⟨created, creating, rest⟩ := Exec.bind_eq_ok.mp adding
        cases created with
        | none => simp at rest
        | some created => exact Actuator.wellFormed_of_createFrommsg creating

theorem addCallback_cases {add : MsgAdd}
    (handled : self.addCallback clientid (some add) = .ok outcome) :
    TargetType.ofInt? add.type = none ∧ outcome = ⟨-1, self, []⟩ ∨
    ∃ target object reply, TargetType.ofInt? add.type = some target ∧ add.WellFormed ∧
      add.object clientid = some object ∧
      object.addMsg = .ok ⟨MsgType.add.toInt, some (.add reply)⟩ ∧
      outcome = ⟨0, { self with state := self.state.store object },
        [.send clientid ⟨MsgType.add.toInt, some (.add reply)⟩]⟩ := by
  cases known : TargetType.ofInt? add.type with
  | none =>
      simp only [addCallback, deref_some, Exec.ok_bind, known] at handled
      cases handled
      exact .inl ⟨rfl, rfl⟩
  | some target =>
      have wellFormed := addCallback_wellFormed known ⟨outcome, handled⟩
      obtain ⟨object, decoded, _, _⟩ := wellFormed.object clientid
      obtain ⟨reply, encoded, _, _, answered⟩ := self.addCallback_spec clientid wellFormed decoded
      cases answered.symm.trans handled
      exact .inr ⟨target, object, reply, rfl, wellFormed, decoded, encoded, rfl⟩

theorem listCallback_cases {msg : MsgList}
    (handled : self.listCallback clientid (some msg) = .ok outcome) :
    TargetType.ofInt? msg.type = none ∧ outcome = ⟨-1, self, []⟩ ∨
    ∃ target list, TargetType.ofInt? msg.type = some target ∧
      outcome = ⟨0, self, [.send clientid ⟨MsgType.list.toInt, some (.list list)⟩]⟩ := by
  cases known : TargetType.ofInt? msg.type with
  | none =>
      simp only [listCallback, deref_some, Exec.ok_bind, known] at handled
      cases handled
      exact .inl ⟨rfl, rfl⟩
  | some target =>
      simp only [listCallback, deref_some, Exec.ok_bind, known] at handled
      refine .inr ⟨target, ?_⟩
      cases target with
      | slice => exact ⟨_, rfl, reply_eq_ok handled⟩
      | sensor => exact ⟨_, rfl, reply_eq_ok handled⟩
      | scope => exact ⟨_, rfl, reply_eq_ok handled⟩
      | actuator =>
          obtain ⟨ret, listed, replied⟩ := Exec.bind_eq_ok.mp handled
          obtain ⟨payload, _, built⟩ := Exec.bind_eq_ok.mp listed
          cases built
          exact ⟨_, rfl, reply_eq_ok replied⟩

theorem removeCallback_cases {frame : List UInt8} {msg : MsgRemove}
    (handled : self.removeCallback frame clientid (some msg) = .ok outcome) :
    TargetType.ofInt? msg.type = none ∧ outcome = ⟨-1, self, []⟩ ∨
    ∃ target, TargetType.ofInt? msg.type = some target ∧
      outcome = ⟨0, self, [.send clientid (Msg.fill .ack)]⟩ := by
  obtain ⟨type, uuid⟩ := msg
  cases known : TargetType.ofInt? type with
  | none =>
      simp only [removeCallback, deref_some, Exec.ok_bind, known] at handled
      cases handled
      exact .inl ⟨rfl, rfl⟩
  | some target =>
      have same := TargetType.ofInt?_eq_some known
      subst same
      rw [removeCallback_eq] at handled
      obtain ⟨⟨after, released⟩, removed, done⟩ := Exec.bind_eq_ok.mp handled
      obtain ⟨_, _, rfl, _⟩ := State.remove_eq_ok removed
      cases done
      exact .inr ⟨target, rfl, rfl⟩

theorem actuate_cases {uuid : NrmString} {value : ℚ} {after : Server U} {emitted : List Emit}
    (actuated : self.actuate uuid value = .ok (after, emitted)) :
    self.state.actuators.lookup uuid = none ∧ after = self ∧ emitted = [] ∨
    ∃ a code corrected owner, self.state.actuators.lookup uuid = some a ∧
      a.correctedValue value = .ok (code, corrected) ∧ a.clientid = some owner ∧
      after = { self with state := self.state.setValue uuid corrected } ∧
      emitted = [.send (stringFromchar owner) (command uuid corrected)] := by
  simp only [Server.actuate, Hash.find_snd] at actuated
  cases found : self.state.actuators.lookup uuid with
  | none =>
      simp only [found] at actuated
      cases actuated
      exact .inl ⟨rfl, rfl, rfl⟩
  | some a =>
      simp only [found] at actuated
      obtain ⟨⟨code, corrected⟩, computed, owning⟩ := Exec.bind_eq_ok.mp actuated
      cases owned : a.clientid with
      | none => simp [owned] at owning
      | some owner =>
          simp only [owned, deref_some, Exec.ok_bind] at owning
          cases owning
          exact .inr ⟨a, code, corrected, owner, rfl, computed, owned, rfl, rfl⟩

theorem actuateCallback_cases {msg : MsgActuate}
    (handled : self.actuateCallback callbacks clientid (some msg) = .ok outcome) :
    outcome = ⟨0, self, [.send clientid (Msg.fill .ack)]⟩ ∨
    ∃ after emitted, self.actuate (stringFromchar msg.uuid) msg.value = .ok (after, emitted) ∧
      outcome = ⟨0, after, emitted ++ [.send clientid (Msg.fill .ack)]⟩ := by
  simp only [actuateCallback, deref_some, Exec.ok_bind, Hash.find_snd] at handled
  cases found : self.state.actuators.lookup (stringFromchar msg.uuid) with
  | none =>
      simp only [found] at handled
      cases handled
      exact .inl rfl
  | some a =>
      simp only [found] at handled
      obtain ⟨accept, _, accepting⟩ := Exec.bind_eq_ok.mp handled
      split at accepting
      · obtain ⟨⟨code, corrected⟩, computed, owning⟩ := Exec.bind_eq_ok.mp accepting
        obtain ⟨owner, owned, done⟩ := Exec.bind_eq_ok.mp owning
        cases done
        refine .inr ⟨{ self with state := self.state.setValue (stringFromchar msg.uuid) corrected },
          [.send (stringFromchar owner) (command (stringFromchar msg.uuid) corrected)], ?_, rfl⟩
        simp only [Server.actuate, Hash.find_snd, found, computed, owned, Exec.ok_bind]
        rfl
      · cases accepting
        exact .inl rfl

theorem eventsCallback_cases {series : List MsgTimeserie}
    (handled : self.eventsCallback callbacks (some series) = .ok outcome) :
    ∃ after emitted, seriesLoop callbacks self series = .ok (after, emitted) ∧
      outcome = ⟨0, after, emitted⟩ := by
  simp only [eventsCallback, deref_some, Exec.ok_bind] at handled
  obtain ⟨⟨after, emitted⟩, looped, done⟩ := Exec.bind_eq_ok.mp handled
  cases done
  exact ⟨after, emitted, looped, rfl⟩

theorem tickCallback_cases {env : E}
    (handled : self.tickCallback callbacks env clientid = .ok outcome) :
    callbacks.tick = none ∧ outcome = ⟨0, self, [.send clientid (Msg.fill .ack)]⟩ ∨
    ∃ tick ticked, callbacks.tick = some tick ∧ tick env self = .ok ticked ∧
      outcome =
        ⟨ticked.code, ticked.server, ticked.emitted ++ [.send clientid (Msg.fill .ack)]⟩ := by
  simp only [tickCallback] at handled
  cases set : callbacks.tick with
  | none =>
      simp only [set] at handled
      cases handled
      exact .inl ⟨rfl, rfl⟩
  | some tick =>
      simp only [set] at handled
      obtain ⟨ticked, ticking, done⟩ := Exec.bind_eq_ok.mp handled
      cases done
      exact .inr ⟨tick, ticked, rfl, ticking, rfl⟩

/-- The callback that handled a message, and what it was given. -/
inductive Handled (callbacks : UserCallbacks U E) (self : Server U) (inbound : Inbound E)
    (outcome : Outcome U) : Prop where
  | actuate (actuate : MsgActuate)
      (received : inbound.msg = some ⟨MsgType.actuate.toInt, some (.actuate actuate)⟩)
      (handled : self.actuateCallback callbacks inbound.clientid (some actuate) = .ok outcome)
  | list (list : MsgList) (received : inbound.msg = some ⟨MsgType.list.toInt, some (.list list)⟩)
      (handled : self.listCallback inbound.clientid (some list) = .ok outcome)
  | add (add : MsgAdd) (received : inbound.msg = some ⟨MsgType.add.toInt, some (.add add)⟩)
      (handled : self.addCallback inbound.clientid (some add) = .ok outcome)
  | events (series : List MsgTimeserie)
      (received : inbound.msg = some ⟨MsgType.events.toInt, some (.events series)⟩)
      (handled : self.eventsCallback callbacks (some series) = .ok outcome)
  | remove (remove : MsgRemove)
      (received : inbound.msg = some ⟨MsgType.remove.toInt, some (.remove remove)⟩)
      (handled : self.removeCallback inbound.frame inbound.clientid (some remove) = .ok outcome)
  | exit (msg : Msg) (received : inbound.msg = some msg) (type : msg.type = MsgType.exit.toInt)
      (handled : outcome = self.exitCallback inbound.clientid)
  | tick (msg : Msg) (received : inbound.msg = some msg) (type : msg.type = MsgType.tick.toInt)
      (handled : self.tickCallback callbacks inbound.env inbound.clientid = .ok outcome)
  | refused (msg : Msg) (received : inbound.msg = some msg)
      (type : MsgType.ofInt? msg.type = none ∨ msg.type = MsgType.ack.toInt)
      (handled : outcome = ⟨-nrmEinval, self, []⟩)

theorem roleCallback_handled {inbound : Inbound E}
    (returned : self.roleCallback callbacks inbound = .ok outcome) :
    Handled callbacks self inbound outcome := by
  obtain ⟨_, _, dereferencing⟩ := Exec.bind_eq_ok.mp returned
  cases received : inbound.msg with
  | none => simp [received] at dereferencing
  | some msg =>
      obtain ⟨type, data⟩ := msg
      simp only [received, deref_some, Exec.ok_bind] at dereferencing
      cases known : MsgType.ofInt? type with
      | none =>
          simp only [known] at dereferencing
          cases dereferencing
          exact .refused _ received (.inl known) rfl
      | some kind =>
          have same := MsgType.ofInt?_eq_some known
          subst same
          simp only [known] at dereferencing
          cases kind with
          | ack =>
              cases dereferencing
              exact .refused _ received (.inr rfl) rfl
          | exit =>
              cases dereferencing
              exact .exit _ received rfl rfl
          | tick => exact .tick _ received rfl dereferencing
          -- the callbacks follow their payload at once, so it is there and of the kind they read
          | list =>
              rcases data with _ | (list | _ | _ | _ | _) <;>
                simp [Msg.list, listCallback] at dereferencing
              exact .list list received (by simpa [listCallback] using dereferencing)
          | add =>
              rcases data with _ | (_ | add | _ | _ | _) <;>
                simp [Msg.add, addCallback] at dereferencing
              exact .add add received (by simpa [addCallback] using dereferencing)
          | remove =>
              rcases data with _ | (_ | _ | remove | _ | _) <;>
                simp [Msg.remove, removeCallback] at dereferencing
              exact .remove remove received (by simpa [removeCallback] using dereferencing)
          | events =>
              rcases data with _ | (_ | _ | _ | series | _) <;>
                simp [Msg.events, eventsCallback] at dereferencing
              exact .events series received (by simpa [eventsCallback] using dereferencing)
          | actuate =>
              rcases data with _ | (_ | _ | _ | _ | actuate) <;>
                simp [Msg.actuate, actuateCallback] at dereferencing
              exact .actuate actuate received (by simpa [actuateCallback] using dereferencing)

/-- Actuations, one after the other: each finds its actuator, stores a value and sends the
owner a command with it. -/
inductive Actuations : State → List Emit → State → Prop where
  | done (state : State) : Actuations state [] state
  | actuate {state last : State} {later : List Emit} {a : Actuator} (uuid : NrmString) (value : ℚ)
      (owner : NrmString) (found : state.actuators.lookup uuid = some a)
      (owned : a.clientid = some owner)
      (rest : Actuations (state.setValue uuid value) later last) :
      Actuations state (.send (stringFromchar owner) (command uuid value) :: later) last

theorem Actuations.append {first middle last : State} {sent later : List Emit}
    (before : Actuations first sent middle) (after : Actuations middle later last) :
    Actuations first (sent ++ later) last := by
  induction before with
  | done state => exact after
  | actuate uuid value owner found owned rest ih => exact .actuate uuid value owner found owned (ih after)

theorem actuations_of_actuate {after : Server U} {uuid : NrmString} {value : ℚ}
    {emitted : List Emit} (actuated : self.actuate uuid value = .ok (after, emitted)) :
    Actuations self.state emitted after.state := by
  rcases actuate_cases actuated with ⟨_, rfl, rfl⟩ | ⟨a, _, corrected, owner, found, _, owned, rfl, rfl⟩
  · exact .done _
  · exact .actuate uuid corrected owner found owned (.done _)

end Server

namespace Nrmd

open Server (Actuations)

theorem actuations_of_actuateOutputs {server after : Server Daemon}
    {outputs : List (ControlOutput ℚ)} {emitted : List Emit}
    (actuated : actuateOutputs server outputs = .ok (after, emitted)) :
    Actuations server.state emitted after.state := by
  induction outputs generalizing server emitted with
  | nil =>
      cases actuated
      exact .done _
  | cons out rest ih =>
      obtain ⟨⟨middle, first⟩, head, continued⟩ := Exec.bind_eq_ok.mp actuated
      obtain ⟨⟨last, others⟩, tail, done⟩ := Exec.bind_eq_ok.mp continued
      cases done
      exact (Server.actuations_of_actuate head).append (ih tail)

theorem actuations_of_controlTick {libm : Libm ℚ} {env : TickEnv} {server : Server Daemon}
    {outcome : Outcome Daemon} (ticked : controlTick libm env server = .ok outcome) :
    Actuations server.state outcome.emitted outcome.server.state := by
  obtain ⟨control, _, pulling⟩ := Exec.bind_eq_ok.mp ticked
  obtain ⟨inputs, _, acting⟩ := Exec.bind_eq_ok.mp pulling
  obtain ⟨acted, _, actuating⟩ := Exec.bind_eq_ok.mp acting
  obtain ⟨⟨last, emitted⟩, actuated, finished⟩ := Exec.bind_eq_ok.mp actuating
  cases finished
  have carried := actuations_of_actuateOutputs actuated
  exact carried

theorem actuations_of_tickCallback {libm : Libm ℚ} {env : TickEnv} {server : Server Daemon}
    {outcome : Outcome Daemon} (ticked : tickCallback libm env server = .ok outcome) :
    Actuations server.state outcome.emitted outcome.server.state := by
  simp only [tickCallback] at ticked
  split at ticked
  · cases ticked
    exact .done _
  · obtain ⟨inner, ticking, done⟩ := Exec.bind_eq_ok.mp ticked
    cases done
    have carried := actuations_of_controlTick ticking
    exact carried

end Nrmd

end LibNrm
