import LibNrm.Client
import LibNrm.Safety

namespace LibNrm

/-- What `nrm_server_actuate` and `nrm_server_publish` send, the only functions of the server
that a user callback can send with. -/
def Emit.Offered : Emit → Prop
  | .pub _ _ => True
  | .send _ msg => ∃ uuid value, msg = Server.command uuid value

structure UserCallbacks.Disciplined {U E : Type} (callbacks : UserCallbacks U E) : Prop where
  event : ∀ event, callbacks.event = some event → ∀ server uuid scope time value user emitted,
    event server uuid scope time value = .ok (user, emitted) → ∀ emit ∈ emitted, emit.Offered
  tick : ∀ tick, callbacks.tick = some tick → ∀ env server outcome,
    tick env server = .ok outcome → ∀ emit ∈ outcome.emitted, emit.Offered
  timer : ∀ timer, callbacks.timer = some timer → ∀ env server outcome,
    timer env server = .ok outcome → ∀ emit ∈ outcome.emitted, emit.Offered

namespace Server

variable {U E : Type} {callbacks : UserCallbacks U E}

theorem Actuations.offered {first last : State} {sent : List Emit}
    (carried : Actuations first sent last) : ∀ emit ∈ sent, emit.Offered := by
  induction carried with
  | done state => simp
  | actuate uuid value owner found owned rest ih =>
      exact List.forall_mem_cons.mpr ⟨⟨uuid, value, rfl⟩, ih⟩

theorem actuateCallback_sent {self : Server U} {clientid : NrmString} {msg : MsgActuate}
    {outcome : Outcome U}
    (handled : self.actuateCallback callbacks clientid (some msg) = .ok outcome) :
    ∃ before, outcome.emitted = before ++ [.send clientid (Msg.fill .ack)] ∧
      ∀ emit ∈ before, emit.Offered := by
  obtain rfl | ⟨after, emitted, actuated, rfl⟩ := actuateCallback_cases handled
  · exact ⟨[], rfl, by simp⟩
  · exact ⟨emitted, rfl, (actuations_of_actuate actuated).offered⟩

theorem tickCallback_sent (disciplined : callbacks.Disciplined) {env : E} {self : Server U}
    {clientid : NrmString} {outcome : Outcome U}
    (handled : self.tickCallback callbacks env clientid = .ok outcome) :
    ∃ before, outcome.emitted = before ++ [.send clientid (Msg.fill .ack)] ∧
      ∀ emit ∈ before, emit.Offered := by
  obtain ⟨_, rfl⟩ | ⟨tick, ticked, set, ticking, rfl⟩ := tickCallback_cases handled
  · exact ⟨[], rfl, by simp⟩
  · exact ⟨ticked.emitted, rfl, disciplined.tick tick set env self ticked ticking⟩

theorem seriesLoop_sent (disciplined : callbacks.Disciplined) {series : List MsgTimeserie}
    {self after : Server U} {emitted : List Emit}
    (ran : seriesLoop callbacks self series = .ok (after, emitted)) :
    ∀ emit ∈ emitted, emit.Offered := by
  rw [seriesLoop_eq] at ran
  refine (callEvents_cases ?_ ran).2
  intro server uuid scope time value user emitted called
  cases set : callbacks.event with
  | none => simp [callEvent, set] at called
  | some event =>
      rw [callEvent_eq set] at called
      exact disciplined.event event set _ _ _ _ _ _ _ called

theorem finishAck_completes : (Call.finishAck (Msg.fill .ack)).Completes := ⟨.done, rfl⟩

theorem createFrommsg_of_msgActuatorNew {actuator : Actuator} {payload : MsgActuator}
    (encoded : msgActuatorNew actuator = .ok payload) :
    (Actuator.createFrommsg (some payload)).Completes := by
  obtain ⟨fields, copied⟩ := msgActuatorNew_eq_ok encoded
  have kind : payload.type = actuator.type := congrArg MsgActuator.type fields
  generalize stored : payload.data = data at copied
  cases copied with
  | discrete choices type read =>
      exact ⟨_, MsgActuator.WellFormed.createFrommsg (.discrete choices (kind.trans type) stored)⟩
  | continuous lmin lmax other type read =>
      exact ⟨_, MsgActuator.WellFormed.createFrommsg (.continuous lmin lmax (kind.trans type) stored)⟩
  | unknown other unknown =>
      exact ⟨none, by simp only [Actuator.createFrommsg, kind, other, unknown, ↓reduceIte]⟩

theorem mapM_eq_ok {β γ : Type} {items : List β} {encode : β → Exec γ} {results : List γ}
    (mapped : items.mapM encode = .ok results) :
    ∀ result ∈ results, ∃ item ∈ items, encode item = .ok result := by
  induction items generalizing results with
  | nil =>
      cases mapped
      simp
  | cons item rest ih =>
      rw [List.mapM_cons] at mapped
      obtain ⟨first, encoded, mapping⟩ := Exec.bind_eq_ok.mp mapped
      obtain ⟨others, later, done⟩ := Exec.bind_eq_ok.mp mapping
      cases done
      rintro result (_ | ⟨_, member⟩)
      · exact ⟨item, List.mem_cons_self, encoded⟩
      · obtain ⟨other, listed, same⟩ := ih later result member
        exact ⟨other, List.mem_cons_of_mem _ listed, same⟩

/-- A LIST request that is served is answered with a list of its type, which
every listing call of that type can read. -/
theorem listCallback_sent {self : Server U} {clientid : NrmString} {msg : MsgList}
    {target : TargetType} (known : msg.type = target.toInt) {outcome : Outcome U}
    (handled : self.listCallback clientid (some msg) = .ok outcome) :
    ∃ list, outcome.emitted = [.send clientid ⟨MsgType.list.toInt, some (.list list)⟩] ∧
      list.type = target.toInt ∧ ∀ keep, (list.objects keep target).Completes := by
  simp only [listCallback, deref_some, Exec.ok_bind, known, TargetType.ofInt?_toInt] at handled
  cases target with
  | slice => exact ⟨_, congrArg Outcome.emitted (reply_eq_ok handled), rfl, fun keep => ⟨_, rfl⟩⟩
  | sensor => exact ⟨_, congrArg Outcome.emitted (reply_eq_ok handled), rfl, fun keep => ⟨_, rfl⟩⟩
  | scope => exact ⟨_, congrArg Outcome.emitted (reply_eq_ok handled), rfl, fun keep => ⟨_, rfl⟩⟩
  | actuator =>
      obtain ⟨ret, listing, replied⟩ := Exec.bind_eq_ok.mp handled
      obtain ⟨payload, encoded, done⟩ := Exec.bind_eq_ok.mp listing
      cases done
      refine ⟨_, congrArg Outcome.emitted (reply_eq_ok replied), rfl, fun keep => ?_⟩
      have decodes : ∀ item ∈ payload.filter fun item => keep item.uuid, ∃ result,
          (Actuator.createFrommsg (some item) >>= fun actuator =>
            (pure (actuator.map .actuator) : Exec (Option Object))) = .ok result ∧ True := by
        intro item member
        obtain ⟨actuator, _, written⟩ := mapM_eq_ok encoded item (List.mem_filter.mp member).1
        obtain ⟨read, decoded⟩ := createFrommsg_of_msgActuatorNew written
        exact ⟨_, by rw [decoded]; rfl, trivial⟩
      obtain ⟨objects, read, _⟩ := Exec.mapM_ok decodes
      exact ⟨objects, read⟩

theorem finishList_completes {target : TargetType} {keep : List UInt8 → Bool} {list : MsgList}
    (type : list.type = target.toInt) (reads : (list.objects keep target).Completes) :
    (Call.finishList target keep ⟨MsgType.list.toInt, some (.list list)⟩).Completes := by
  obtain ⟨objects, read⟩ := reads
  exact ⟨.listed objects, by simp [Call.finishList, Msg.list, type, read]⟩

theorem decoded_type {msg : MsgActuator} (wellFormed : msg.WellFormed) :
    msg.decoded.type = msg.type := by
  cases wellFormed with
  | discrete choices type data => simp [MsgActuator.decoded, data, type]
  | continuous lmin lmax type data => simp [MsgActuator.decoded, data, type]

theorem wellFormed_actuator {type : Int} {payload : MsgActuator}
    (wellFormed : MsgAdd.WellFormed ⟨type, some (.actuator payload)⟩) : payload.WellFormed := by
  cases wellFormed with
  | slice _ _ data => cases data
  | sensor _ _ data => cases data
  | scope _ _ data => cases data
  | actuator _ _ data inner =>
      cases data
      exact inner

theorem updateFrommsg_completes {actuator : Actuator} {sent reply : MsgActuator}
    (encoded : msgActuatorNew actuator = .ok sent) (same : reply.type = actuator.type)
    (wellFormed : reply.WellFormed) : (actuator.updateFrommsg (some reply)).Completes := by
  obtain ⟨base, alike, discrete, continuous⟩ := actuator.updateFrommsg_eq reply
  cases wellFormed with
  | discrete choices type data =>
      rw [discrete choices type data]
      have copied := (msgActuatorNew_eq_ok encoded).2
      generalize sent.data = copy at copied
      cases copied with
      | discrete current _ read =>
          have readable : base.choices = .ok current := by
            simp only [Actuator.choices, alike.u]
            exact read
          unfold Actuator.discreteSetChoices
          split
          · exact ⟨_, rfl⟩
          · exact ⟨_, by rw [readable]; rfl⟩
      | continuous lmin lmax other _ read => exact absurd (same.symm.trans type) other
      | unknown other unknown => exact absurd (same.symm.trans type) other
  | continuous lmin lmax type data =>
      rw [continuous lmin lmax type data]
      exact ⟨_, rfl⟩

theorem addMsg_eq_ok {object : Object} {msg : Msg} (requested : object.addMsg = .ok msg) :
    ∃ add, msg = ⟨MsgType.add.toInt, some (.add add)⟩ ∧ add.type = object.type.toInt := by
  cases object with
  | slice object => cases requested; exact ⟨_, rfl, rfl⟩
  | sensor object => cases requested; exact ⟨_, rfl, rfl⟩
  | scope object => cases requested; exact ⟨_, rfl, rfl⟩
  | actuator object =>
      obtain ⟨payload, _, done⟩ := Exec.bind_eq_ok.mp requested
      cases done
      exact ⟨_, rfl, rfl⟩

theorem update_completes {object stored : Object} {clientid : NrmString} {add reply : MsgAdd}
    (requested : object.addMsg = .ok ⟨MsgType.add.toInt, some (.add add)⟩)
    (wellFormed : add.WellFormed) (decoded : add.object clientid = some stored)
    (kinds : stored.type = object.type)
    (encoded : stored.addMsg = .ok ⟨MsgType.add.toInt, some (.add reply)⟩)
    (replyWellFormed : reply.WellFormed) : (object.updateFrommsg reply).Completes := by
  cases object with
  | slice object =>
      cases stored <;> cases kinds
      cases encoded
      exact ⟨_, rfl⟩
  | sensor object =>
      cases stored <;> cases kinds
      cases encoded
      exact ⟨_, rfl⟩
  | scope object =>
      cases stored <;> cases kinds
      cases encoded
      exact ⟨_, rfl⟩
  | actuator object =>
      cases stored <;> cases kinds
      obtain ⟨sent, written, done⟩ := Exec.bind_eq_ok.mp requested
      cases done
      obtain ⟨payload, rewritten, done⟩ := Exec.bind_eq_ok.mp encoded
      cases done
      cases decoded
      -- the reply is of the type of the request, so the union is read as what it is
      have same : payload.type = object.type :=
        calc payload.type = sent.decoded.type := congrArg MsgActuator.type (msgActuatorNew_eq_ok rewritten).1
          _ = sent.type := decoded_type (wellFormed_actuator wellFormed)
          _ = object.type := congrArg MsgActuator.type (msgActuatorNew_eq_ok written).1
      obtain ⟨updated, read⟩ :=
        updateFrommsg_completes written same (wellFormed_actuator replyWellFormed)
      exact ⟨.actuator updated, by simp [Object.updateFrommsg, MsgAdd.actuator, read]⟩

theorem addCallback_sent {self : Server U} {clientid : NrmString} {object : Object} {add : MsgAdd}
    (requested : object.addMsg = .ok ⟨MsgType.add.toInt, some (.add add)⟩)
    (type : add.type = object.type.toInt) {outcome : Outcome U}
    (handled : self.addCallback clientid (some add) = .ok outcome) :
    ∃ reply, outcome.emitted = [.send clientid ⟨MsgType.add.toInt, some (.add reply)⟩] ∧
      ((Call.add object).finish ⟨MsgType.add.toInt, some (.add reply)⟩).Completes := by
  have wellFormed : add.WellFormed :=
    addCallback_wellFormed (by rw [type, TargetType.ofInt?_toInt]) ⟨outcome, handled⟩
  obtain ⟨stored, decoded, _, storedType⟩ := wellFormed.object clientid
  obtain ⟨reply, encoded, replyWellFormed, replyType, answered⟩ :=
    self.addCallback_spec clientid wellFormed decoded
  cases answered.symm.trans handled
  have kinds : stored.type = object.type := by
    have known := congrArg TargetType.ofInt? (storedType.symm.trans type)
    simpa using known
  obtain ⟨updated, read⟩ :=
    update_completes requested wellFormed decoded kinds encoded replyWellFormed
  refine ⟨reply, rfl, .updated updated, ?_⟩
  simp [Call.finish, Msg.add, replyType, kinds, read]

end Server

/-- What the server sends while it handles the request of a call: the reply comes last, and
only an event has none. -/
inductive Call.Answered (call : Call) (clientid : NrmString) (emitted : List Emit) : Prop where
  | reply (before : List Emit) (msg : Msg) (expected : call = .sendExit ∨ call.blocking = true)
      (offered : ∀ emit ∈ before, emit.Offered)
      (sent : emitted = before ++ [.send clientid msg]) (isReply : msg.isReply = true)
      (finishes : (call.finish msg).Completes)
  | event (time : NrmTime) (sensor : Sensor) (scope : Scope) (value : ℚ)
      (isEvent : call = .sendEvent time sensor scope value)
      (offered : ∀ emit ∈ emitted, emit.Offered)

theorem Call.listRequest_eq_ok {target : TargetType} {msg : Msg}
    (requested : listRequest target = .ok msg) :
    ∃ list, msg = ⟨MsgType.list.toInt, some (.list list)⟩ ∧ list.type = target.toInt := by
  cases target with
  | slice => cases requested; exact ⟨_, rfl, rfl⟩
  | sensor => cases requested; exact ⟨_, rfl, rfl⟩
  | scope => cases requested; exact ⟨_, rfl, rfl⟩
  | actuator => cases requested; exact ⟨_, rfl, rfl⟩

namespace Server

variable {U E : Type} {callbacks : UserCallbacks U E}

/-- Every request that is served is answered as its call expects. -/
theorem roleCallback_answers (disciplined : callbacks.Disciplined) {call : Call} {msg : Msg}
    (requested : call.request = .ok (some msg)) {self : Server U} {clientid : NrmString}
    {frame : List UInt8} {env : E} {outcome : Outcome U}
    (handled : self.roleCallback callbacks ⟨clientid, some msg, frame, env⟩ = .ok outcome) :
    call.Answered clientid outcome.emitted := by
  obtain ⟨_, _, dispatched⟩ := Exec.bind_eq_ok.mp handled
  simp only [deref_some, Exec.ok_bind] at dispatched
  cases call with
  | actuate actuator value =>
      obtain ⟨err, _, building⟩ := Exec.bind_eq_ok.mp requested
      split at building
      · cases building
      · cases building
        obtain ⟨before, sent, offered⟩ := actuateCallback_sent dispatched
        exact .reply before _ (.inr rfl) offered sent rfl finishAck_completes
  | add object =>
      obtain ⟨built, building, done⟩ := Exec.bind_eq_ok.mp requested
      cases done
      obtain ⟨add, rfl, type⟩ := addMsg_eq_ok building
      obtain ⟨reply, sent, finishes⟩ := addCallback_sent building type dispatched
      exact .reply [] _ (.inr rfl) (by simp) sent rfl finishes
  | list target =>
      obtain ⟨built, building, done⟩ := Exec.bind_eq_ok.mp requested
      cases done
      obtain ⟨list, rfl, type⟩ := Call.listRequest_eq_ok building
      obtain ⟨reply, sent, replyType, reads⟩ := listCallback_sent type dispatched
      exact .reply [] _ (.inr rfl) (by simp) sent rfl (finishList_completes replyType (reads _))
  | find target uuid =>
      obtain ⟨built, building, done⟩ := Exec.bind_eq_ok.mp requested
      cases done
      obtain ⟨list, rfl, type⟩ := Call.listRequest_eq_ok building
      obtain ⟨reply, sent, replyType, reads⟩ := listCallback_sent type dispatched
      exact .reply [] _ (.inr rfl) (by simp) sent rfl (finishList_completes replyType (reads _))
  | remove target uuid =>
      cases requested
      change self.removeCallback frame clientid (some ⟨target.toInt, stringFromchar uuid⟩) =
        .ok outcome at dispatched
      rw [removeCallback_eq] at dispatched
      obtain ⟨⟨state, released⟩, _, done⟩ := Exec.bind_eq_ok.mp dispatched
      cases done
      exact .reply [] _ (.inr rfl) (by simp) rfl rfl finishAck_completes
  | sendTick =>
      cases requested
      obtain ⟨before, sent, offered⟩ := tickCallback_sent disciplined dispatched
      exact .reply before _ (.inr rfl) offered sent rfl finishAck_completes
  | sendEvent time sensor scope value =>
      obtain ⟨built, building, done⟩ := Exec.bind_eq_ok.mp requested
      cases done
      obtain ⟨series, _, done⟩ := Exec.bind_eq_ok.mp building
      cases done
      change (seriesLoop callbacks self series >>= fun looped =>
        .ok ⟨0, looped.1, looped.2⟩) = .ok outcome at dispatched
      obtain ⟨⟨after, emitted⟩, looped, done⟩ := Exec.bind_eq_ok.mp dispatched
      cases done
      exact .event time sensor scope value rfl (seriesLoop_sent disciplined looped)
  | sendExit =>
      cases requested
      cases dispatched
      exact .reply [] _ (.inl rfl) (by simp) rfl rfl ⟨.done, rfl⟩

theorem publish_offered {self : Server U} {topic : NrmString} {now : NrmTime}
    {sensorUuid : NrmString} {scope : Option Scope} {value : ℚ} {emitted : List Emit}
    (published : self.publish topic now sensorUuid scope value = .ok emitted) :
    ∀ emit ∈ emitted, emit.Offered := by
  obtain ⟨other, same, onlyPub⟩ := self.publish_completes topic now sensorUuid scope value
  cases same.symm.trans published
  intro emit member
  obtain ⟨msg, rfl⟩ := onlyPub emit member
  trivial

end Server

namespace Nrmd

/-- The callbacks of `nrmd` send through the server's own functions only. -/
theorem callbacks_disciplined (libm : Libm ℚ) : (callbacks libm).Disciplined where
  event := by
    intro event set server uuid scope time value user emitted handled
    cases set
    obtain ⟨pushed, _, publishing⟩ := Exec.bind_eq_ok.mp handled
    obtain ⟨published, publishes, done⟩ := Exec.bind_eq_ok.mp publishing
    cases done
    exact Server.publish_offered publishes
  tick := by
    intro tick set env server outcome handled
    cases set
    exact (actuations_of_tickCallback handled).offered
  timer := by
    intro timer set env server outcome handled
    cases set
    obtain ⟨published, publishes, ticking⟩ := Exec.bind_eq_ok.mp handled
    have offered := Server.publish_offered publishes
    split at ticking
    · cases ticking
      exact offered
    · obtain ⟨ticked, ticks, done⟩ := Exec.bind_eq_ok.mp ticking
      cases done
      rw [List.forall_mem_append]
      exact ⟨offered, (actuations_of_controlTick ticks).offered⟩

end Nrmd

end LibNrm
