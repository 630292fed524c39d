import LibNrm.Registry.Refinement

namespace LibNrm

namespace Actuator

/-- The corrections that land on an acceptable value. A discrete actuator needs a choice to
land on: the first when the value is below it, the last when it is above, and in between one
that is closer than `DBL_MAX`. A continuous one needs its limits the right way round. -/
def Correctable (actuator : Actuator) (value : ℚ) : Prop :=
  match actuator.u with
  | .choices choices =>
      ∃ first ∈ choices.head?, ∃ last ∈ choices.getLast?,
        value < first ∨ value > last ∨ ∃ choice ∈ choices, |value - choice| < dblMax
  | .limits lower upper => lower ≤ upper

theorem nearest_eq_or_mem (value : ℚ) (choices : List ℚ) (best dist : ℚ) :
    nearest value choices best dist = best ∨ nearest value choices best dist ∈ choices := by
  induction choices generalizing best dist with
  | nil => exact .inl rfl
  | cons choice rest ih =>
      simp only [nearest]
      split
      · rcases ih choice |value - choice| with same | later
        · exact .inr (by simp [same])
        · exact .inr (List.mem_cons_of_mem _ later)
      · rcases ih best dist with same | later
        · exact .inl same
        · exact .inr (List.mem_cons_of_mem _ later)

theorem nearest_mem {value : ℚ} {choices : List ℚ} {best dist : ℚ}
    (near : ∃ choice ∈ choices, |value - choice| < dist) :
    nearest value choices best dist ∈ choices := by
  induction choices generalizing best dist with
  | nil =>
      obtain ⟨choice, member, _⟩ := near
      cases member
  | cons choice rest ih =>
      simp only [nearest]
      split
      · rcases nearest_eq_or_mem value rest choice |value - choice| with same | later
        · rw [same]
          exact List.mem_cons_self
        · exact List.mem_cons_of_mem _ later
      · rename_i far
        obtain ⟨other, member, close⟩ := near
        rcases List.mem_cons.mp member with rfl | later
        · exact absurd close far
        · exact List.mem_cons_of_mem _ (ih ⟨other, later, close⟩)

theorem nearest_eq {value : ℚ} {choices : List ℚ} {best dist : ℚ}
    (far : ∀ choice ∈ choices, ¬ |value - choice| < dist) :
    nearest value choices best dist = best := by
  induction choices with
  | nil => rfl
  | cons choice rest ih =>
      simp only [nearest, far choice List.mem_cons_self, ↓reduceIte]
      exact ih fun other member => far other (List.mem_cons_of_mem _ member)

theorem dblMax_pos : 0 < dblMax := by
  unfold dblMax
  norm_num

theorem discrete_corrected_mem_iff {choices : List ℚ} {actuator : Actuator} {value corrected : ℚ}
    {code : Int} (u : actuator.u = .choices choices)
    (computed : actuator.discreteCorrectedValue value = .ok (code, corrected)) :
    corrected ∈ choices ↔ actuator.Correctable value := by
  simp only [Correctable, u]
  simp only [discreteCorrectedValue, Actuator.choices, u, Exec.ok_bind] at computed
  cases choices with
  | nil =>
      cases computed
      simp
  | cons first rest =>
      obtain ⟨last, ending⟩ : ∃ last, (first :: rest).getLast? = some last :=
        ⟨_, List.getLast?_eq_some_getLast (by simp)⟩
      have lastMember : last ∈ first :: rest := List.mem_of_getLast? ending
      simp only [List.head?_cons, ending] at computed ⊢
      simp only [Option.mem_some_iff, exists_eq_left']
      split at computed
      · rename_i below
        cases computed
        exact ⟨fun _ => .inl below, fun _ => List.mem_cons_self⟩
      · rename_i notBelow
        split at computed
        · rename_i above
          cases computed
          exact ⟨fun _ => .inr (.inl above), fun _ => lastMember⟩
        · rename_i notAbove
          cases computed
          constructor
          · intro member
            refine .inr (.inr ?_)
            by_contra far
            have distant : ∀ choice ∈ first :: rest, ¬ |value - choice| < dblMax :=
              fun choice listed close => far ⟨choice, listed, close⟩
            rw [nearest_eq distant] at member
            exact distant value member (by simpa using dblMax_pos)
          · rintro (below | above | near)
            · exact absurd below notBelow
            · exact absurd above notAbove
            · exact nearest_mem near

theorem continuous_corrected_iff {lower upper : ℚ} {actuator : Actuator} {value corrected : ℚ}
    {code : Int} (u : actuator.u = .limits lower upper)
    (computed : actuator.continuousCorrectedValue value = .ok (code, corrected)) :
    ¬ (corrected < lower ∨ corrected > upper) ↔ actuator.Correctable value := by
  simp only [Correctable, u]
  simp only [continuousCorrectedValue, Actuator.limits, u, Exec.ok_bind] at computed
  split at computed
  · cases computed
    simp
  · rename_i notBelow
    split at computed
    · cases computed
      simp
    · rename_i notAbove
      cases computed
      simp only [notBelow, notAbove, or_self, not_false_eq_true, true_iff]
      exact le_trans (not_lt.mp notBelow) (not_lt.mp notAbove)

theorem Consistent.validate_iff {actuator : Actuator} (consistent : actuator.Consistent)
    {value corrected : ℚ} {code : Int}
    (computed : actuator.correctedValue value = .ok (code, corrected)) :
    (actuator.setValue corrected).validateValue corrected = .ok 0 ↔ actuator.Correctable value := by
  cases consistent with
  | discrete choices type ops u =>
      simp only [correctedValue, ops] at computed
      rw [← discrete_corrected_mem_iff u computed]
      simp only [validateValue, Actuator.setValue, ops, discreteValidateValue, Actuator.choices, u,
        Exec.ok_bind, nrmEdom]
      by_cases listed : corrected ∈ choices <;> simp [listed]
  | continuous lower upper type ops u =>
      simp only [correctedValue, ops] at computed
      rw [← continuous_corrected_iff u computed]
      simp only [validateValue, Actuator.setValue, ops, continuousValidateValue, Actuator.limits, u,
        Exec.ok_bind, nrmEdom]
      by_cases outside : corrected < lower ∨ corrected > upper <;> simp [outside]

end Actuator

namespace Server

variable {U E : Type}

/-- The ways the server is told to register or to actuate: client messages, and the control
loop's calls of `nrm_server_actuate`. -/
inductive ActuationOp (E : Type) where
  | message (inbound : Inbound E)
  | actuate (uuid : NrmString) (value : ℚ)

def actuationStep (callbacks : UserCallbacks U E) (self : Server U) :
    ActuationOp E → Exec (Server U)
  | .message inbound => do
      let outcome ← self.roleCallback callbacks inbound
      pure outcome.server
  | .actuate uuid value => do
      let (server, _) ← self.actuate uuid value
      pure server

/-- Messages are well-formed ADD or ACTUATE requests. -/
inductive ActuationOp.Ordinary : ActuationOp E → Prop where
  | add (inbound : Inbound E) (add : MsgAdd)
      (received : inbound.msg = some ⟨MsgType.add.toInt, some (.add add)⟩)
      (wellFormed : add.WellFormed) : Ordinary (.message inbound)
  | message (inbound : Inbound E) (msg : MsgActuate)
      (received : inbound.msg = some ⟨MsgType.actuate.toInt, some (.actuate msg)⟩) :
      Ordinary (.message inbound)
  | actuate (uuid : NrmString) (value : ℚ) : Ordinary (.actuate uuid value)

theorem roleCallback_actuate (callbacks : UserCallbacks U E) (self : Server U)
    {inbound : Inbound E} {msg : MsgActuate}
    (received : inbound.msg = some ⟨MsgType.actuate.toInt, some (.actuate msg)⟩) :
    self.roleCallback callbacks inbound =
      self.actuateCallback callbacks inbound.clientid (some msg) := by
  rw [self.roleCallback_of_wellFormed callbacks received (.actuate msg rfl rfl)]
  simp only [MsgType.ofInt?_toInt, Msg.actuate, Exec.ok_bind]

theorem actuationStep_message {callbacks : UserCallbacks U E} {self : Server U}
    {inbound : Inbound E} {outcome : Outcome U}
    (handled : self.roleCallback callbacks inbound = .ok outcome) :
    self.actuationStep callbacks (.message inbound) = .ok outcome.server := by
  simp only [actuationStep, handled, Exec.ok_bind, Exec.pure_eq_ok]

theorem actuationStep_actuate (callbacks : UserCallbacks U E) {self next : Server U}
    {uuid : NrmString} {value : ℚ} {emitted : List Emit}
    (carried : self.actuate uuid value = .ok (next, emitted)) :
    self.actuationStep callbacks (.actuate uuid value) = .ok next := by
  simp only [actuationStep, carried, Exec.ok_bind, Exec.pure_eq_ok]

theorem actuationStep_registry {callbacks : UserCallbacks U E} {accept : U → Actuator → ℚ → Int}
    (set : callbacks.actuate = some accept) (self : Server U) (op : ActuationOp E)
    (sound : ∃ registry : Registry, self.state = registry.state) (ordinary : op.Ordinary) :
    ∃ next, self.actuationStep callbacks op = .ok next ∧
      ∃ registry : Registry, next.state = registry.state := by
  obtain ⟨registry, stored⟩ := sound
  cases ordinary with
  | add inbound add received wellFormed =>
      obtain ⟨object, decoded, ready, _⟩ := wellFormed.object inbound.clientid
      obtain ⟨_, _, _, _, handled⟩ := self.addCallback_spec inbound.clientid wellFormed decoded
      have dispatched := self.roleCallback_of_wellFormed callbacks received
        (.add add rfl rfl wellFormed)
      simp only [MsgType.ofInt?_toInt, Msg.add, Exec.ok_bind, handled] at dispatched
      refine ⟨_, actuationStep_message dispatched, registry.register object ready, ?_⟩
      rw [stored, registry.store_eq_register object ready]
  | message inbound msg received =>
      have dispatched := self.roleCallback_actuate callbacks received
      rcases self.actuateCallback_spec callbacks set registry stored inbound.clientid msg with
        ⟨_, refused⟩ | ⟨_, _, _, _, _, _, _, _, carried⟩
      · exact ⟨_, actuationStep_message (dispatched.trans refused), registry, stored⟩
      · exact ⟨_, actuationStep_message (dispatched.trans carried), _, rfl⟩
  | actuate uuid value =>
      rcases self.actuate_spec registry stored uuid value with
        ⟨_, ignored⟩ | ⟨_, _, _, _, _, _, _, carried⟩
      · exact ⟨_, actuationStep_actuate callbacks ignored, registry, stored⟩
      · exact ⟨_, actuationStep_actuate callbacks carried, _, rfl⟩

/-- An actuation of `a`, registered under `uuid`, that asked for `value`: the actuator as it is
stored afterwards, the command its owner was sent, and when the stored value is one the
actuator accepts. -/
def Actuated (uuid : NrmString) (a : Actuator) (value : ℚ) (after : State)
    (emitted : List Emit) : Prop :=
  ∃ stored owner, after.actuators.lookup uuid = some stored ∧ a.clientid = some owner ∧
    (∀ dest msg, .send dest msg ∈ emitted → msg.type = MsgType.actuate.toInt →
      dest = stringFromchar owner ∧ msg = command uuid stored.value) ∧
    .send (stringFromchar owner) (command uuid stored.value) ∈ emitted ∧
    (stored.validateValue stored.value = .ok 0 ↔ a.Correctable value)

theorem actuated_of_setValue (registry : Registry) {uuid : NrmString} {a : Actuator}
    {value corrected : ℚ} {code : Int} {owner : NrmString} {emitted : List Emit}
    (found : registry.state.actuators.lookup uuid = some a)
    (computed : a.correctedValue value = .ok (code, corrected)) (owned : a.clientid = some owner)
    (sent : emitted = [.send (stringFromchar owner) (command uuid corrected)] ∨
      ∃ clientid, emitted = [.send (stringFromchar owner) (command uuid corrected),
        .send clientid (Msg.fill .ack)]) :
    Actuated uuid a value (registry.setValue uuid corrected).state emitted := by
  refine ⟨a.setValue corrected, owner, ?_, owned, ?_, ?_, ?_⟩
  · simp [Registry.setValue_state, Data.Table.lookup_modify, found]
  · intro dest msg member isCommand
    rcases sent with rfl | ⟨clientid, rfl⟩
    · simpa [Actuator.setValue] using member
    · simp only [List.mem_cons, Emit.send.injEq, List.not_mem_nil, or_false] at member
      rcases member with first | ⟨_, rfl⟩
      · exact first
      · exact absurd isCommand (by decide)
  · rcases sent with rfl | ⟨clientid, rfl⟩
    · exact List.mem_cons_self
    · exact List.mem_cons_self
  · exact (registry.ready_of_lookup found).consistent.validate_iff computed

/-- In every run of ADD and ACTUATE messages and control loop actuations, every
actuation of a registered actuator that is carried out sends its owner the value
it stores, and that value is valid exactly when the request was correctable. -/
theorem run_actuates (callbacks : UserCallbacks U E) {accept : U → Actuator → ℚ → Int}
    (set : callbacks.actuate = some accept) (server : Server U)
    (fresh : server.state = State.create) (ops : List (ActuationOp E))
    (ordinary : ∀ op ∈ ops, op.Ordinary) :
    ∃ final, Data.run (actuationStep callbacks) server ops = .ok final ∧
      ∀ uuid a, final.state.actuators.lookup uuid = some a →
        (∀ inbound msg, inbound.msg = some ⟨MsgType.actuate.toInt, some (.actuate msg)⟩ →
          stringFromchar msg.uuid = uuid → accept final.user a msg.value = 0 →
          ∃ outcome, final.roleCallback callbacks inbound = .ok outcome ∧
            Actuated uuid a msg.value outcome.server.state outcome.emitted) ∧
        (∀ value, ∃ next emitted, final.actuate uuid value = .ok (next, emitted) ∧
          Actuated uuid a value next.state emitted) := by
  obtain ⟨final, ran, registry, stored⟩ :=
    Data.run_total (actuationStep_registry set) ⟨.empty, fresh⟩ ordinary
  refine ⟨final, ran, ?_⟩
  intro uuid a found
  have foundIn : registry.state.actuators.lookup uuid = some a := stored ▸ found
  constructor
  · intro inbound msg received named accepted
    subst named
    rw [final.roleCallback_actuate callbacks received]
    rcases final.actuateCallback_spec callbacks set registry stored inbound.clientid msg with
      ⟨refused, _⟩ | ⟨other, code, corrected, owner, same, _, computed, owned, carried⟩
    · exact absurd accepted (refused a found)
    · cases same.symm.trans found
      exact ⟨_, carried, actuated_of_setValue registry foundIn computed owned (.inr ⟨_, rfl⟩)⟩
  · intro value
    rcases final.actuate_spec registry stored uuid value with
      ⟨absent, _⟩ | ⟨other, code, corrected, owner, same, computed, owned, carried⟩
    · cases absent.symm.trans found
    · cases same.symm.trans found
      exact ⟨_, _, carried, actuated_of_setValue registry foundIn computed owned (.inl rfl)⟩

def sampleCallbacks : UserCallbacks Daemon TickEnv := Nrmd.callbacks ⟨fun _ => 1, fun _ => 0⟩

def sampleAdd (choices : List ℚ) : ActuationOp TickEnv :=
  .message (Nrmd.inboundAdd [65] ⟨3, some (.actuator ⟨[97], none, 0, 0, some (.discrete choices)⟩)⟩)

/-- With choices 2 and 1, a request for 5 stores 2. -/
theorem run_actuates_sample :
    ∃ final a next emitted, Data.run (actuationStep sampleCallbacks) Nrmd.fresh [sampleAdd [2, 1]] =
        .ok final ∧ final.state.actuators.lookup [97] = some a ∧ a.Correctable 5 ∧
      final.actuate [97] 5 = .ok (next, emitted) ∧ Actuated [97] a 5 next.state emitted := by
  obtain ⟨final, ran, actuates⟩ := run_actuates sampleCallbacks rfl Nrmd.fresh rfl [sampleAdd [2, 1]]
    (by simpa using .add _ _ rfl (.actuator _ rfl rfl (.discrete _ rfl rfl)))
  obtain ⟨server, a, computed, found, choices⟩ : ∃ server a,
      Data.run (actuationStep sampleCallbacks) Nrmd.fresh [sampleAdd [2, 1]] = .ok server ∧
        server.state.actuators.lookup [97] = some a ∧ a.u = .choices [1, 2] :=
    ⟨_, _, rfl, rfl, by decide +kernel⟩
  cases computed.symm.trans ran
  obtain ⟨next, emitted, carried, actuated⟩ := (actuates [97] a found).2 5
  refine ⟨_, a, next, emitted, ran, found, ?_, carried, actuated⟩
  simp only [Actuator.Correctable, choices]
  exact ⟨1, rfl, 2, rfl, .inr (.inl (by norm_num))⟩

/-- A discrete actuator without choices is registered like any other, and then
any value is stored and sent. -/
theorem no_choices_stores_invalid :
    ∃ server outcome stored,
      Data.run (actuationStep sampleCallbacks) Nrmd.fresh [sampleAdd []] = .ok server ∧
      server.roleCallback sampleCallbacks
        ⟨[66], some ⟨5, some (.actuate ⟨[97], 5⟩)⟩, [], Nrmd.noEnv⟩ = .ok outcome ∧
      outcome.server.state.actuators.lookup [97] = some stored ∧
      stored.validateValue stored.value ≠ .ok 0 :=
  ⟨_, _, _, rfl, rfl, rfl, by decide⟩

end Server

end LibNrm
