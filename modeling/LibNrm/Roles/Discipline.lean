import LibNrm.Roles.Correlation

namespace LibNrm

def Client.listening (client : Client) : Bool := client.cmdCb && client.actuateFn

namespace Link

variable {E : Type} {client : ClientId} {link next : Link}

/-- The broker can sort everything that is on its way to it. -/
structure Sortable (link : Link) : Prop where
  kinds : ∀ tagged ∈ link.inbound, tagged.msg.isReply = true ∨
    ∃ uuid value, tagged.msg = Server.command uuid value
  sent : ∀ tagged ∈ link.inbound, tagged ∈ link.addressed
  heard : ∀ tagged ∈ link.heard, tagged ∈ link.addressed ∧ tagged.msg.isCommand = true

def commandsInFlight (link : Link) : List Tagged :=
  link.inbound.filter fun tagged => tagged.msg.isCommand

theorem Sortable.push (sortable : link.Sortable) {messages : List Tagged}
    (kinds : ∀ tagged ∈ messages, tagged.msg.isReply = true ∨
      ∃ uuid value, tagged.msg = Server.command uuid value) : (link.push messages).Sortable where
  kinds := List.forall_mem_append.mpr ⟨sortable.kinds, kinds⟩
  sent := by
    simp only [Link.push, List.forall_mem_append]
    exact ⟨fun tagged earlier => List.mem_append_left _ (sortable.sent tagged earlier),
      fun tagged last => List.mem_append_right _ last⟩
  heard := by
    intro tagged member
    exact ⟨List.mem_append_left _ (sortable.heard tagged member).1, (sortable.heard tagged member).2⟩

theorem answered_kinds {request : Request} {emitted : List Emit}
    (answered : request.call.Answered client.uuid emitted) :
    ∀ tagged ∈ arrivals client (Turn.posted ⟨some (client, request), emitted⟩),
      tagged.msg.isReply = true ∨ ∃ uuid value, tagged.msg = Server.command uuid value := by
  cases answered with
  | reply before msg expected offered sent isReply finishes =>
      rw [sent, arrivals_reply]
      rw [List.forall_mem_append]
      refine ⟨fun tagged earlier => .inr (arrivals_offered offered tagged earlier), ?_⟩
      simp only [↓reduceIte, List.forall_mem_singleton]
      exact .inl isReply
  | event time sensor scope value isEvent offered =>
      exact fun tagged member => .inr (arrivals_offered offered tagged member)

theorem Sortable.tail (sortable : link.Sortable) {tagged : Tagged} {rest : List Tagged}
    (oldest : link.inbound = tagged :: rest) : { link with inbound := rest }.Sortable where
  kinds := by
    intro other member
    exact sortable.kinds other (by rw [oldest]; exact List.mem_cons_of_mem _ member)
  sent := by
    intro other member
    exact sortable.sent other (by rw [oldest]; exact List.mem_cons_of_mem _ member)
  heard := sortable.heard

theorem Sortable.isCommand_iff (sortable : link.Sortable) {tagged : Tagged}
    (member : tagged ∈ link.inbound) : tagged.msg.isCommand = !tagged.msg.isReply := by
  rcases sortable.kinds tagged member with isReply | ⟨uuid, value, command⟩
  · simp [isReply, Msg.not_isCommand_of_isReply isReply]
  · simp [command]

theorem Step.sortable {action : Action E} (step : Step client link action next)
    (sortable : link.Sortable) : next.Sortable := by
  cases step with
  | elsewhere => exact sortable
  | send thread request numbered => exact ⟨sortable.kinds, sortable.sent, sortable.heard⟩
  | serve frame env request rest emitted oldest answered =>
      have pushed := sortable.push (answered_kinds answered)
      exact ⟨pushed.kinds, pushed.sent, pushed.heard⟩
  | push _ messages commands =>
      exact sortable.push fun tagged member => .inr (commands tagged member)
  | reply tagged rest oldest isReply =>
      have tail := sortable.tail oldest
      exact ⟨tail.kinds, tail.sent, tail.heard⟩
  | command tagged rest oldest notReply =>
      have tail := sortable.tail oldest
      have member : tagged ∈ link.inbound := by
        rw [oldest]
        exact List.mem_cons_self
      refine ⟨tail.kinds, tail.sent, ?_⟩
      dsimp only
      split
      · rw [List.forall_mem_append]
        refine ⟨sortable.heard, ?_⟩
        rw [List.forall_mem_singleton]
        exact ⟨sortable.sent tagged member, by simp [sortable.isCommand_iff member, notReply]⟩
      · exact sortable.heard
  | recv waiting reply rest found oldest => exact ⟨sortable.kinds, sortable.sent, sortable.heard⟩
  | listen _ listening kept => exact ⟨sortable.kinds, sortable.sent, sortable.heard⟩

/-- With a listener, each command on the link is either still on its way or has
been heard, in the order of sending. -/
theorem Step.hears {action : Action E} (step : Step client link action next)
    (sortable : link.Sortable) (listening : link.listening = true) :
    next.listening = true ∧ ∃ sent, next.addressed = link.addressed ++ sent ∧
      next.heard ++ next.commandsInFlight =
        link.heard ++ link.commandsInFlight ++ sent.filter fun tagged => tagged.msg.isCommand := by
  cases step with
  | elsewhere => exact ⟨listening, [], by simp⟩
  | send thread request numbered => exact ⟨listening, [], by simp [Link.send, commandsInFlight]⟩
  | serve frame env request rest emitted oldest answered =>
      exact ⟨listening, _, rfl, by simp [Link.serve, Link.push, commandsInFlight]⟩
  | push _ messages commands => exact ⟨listening, messages, rfl, by simp [Link.push, commandsInFlight]⟩
  | reply tagged rest oldest isReply =>
      refine ⟨listening, [], by simp, ?_⟩
      simp [commandsInFlight, oldest, Msg.not_isCommand_of_isReply isReply]
  | command tagged rest oldest notReply =>
      have isCommand : tagged.msg.isCommand = true := by
        rw [sortable.isCommand_iff (by rw [oldest]; exact List.mem_cons_self), notReply]
        rfl
      refine ⟨listening, [], by simp, ?_⟩
      simp [commandsInFlight, oldest, listening, isCommand]
  | recv waiting reply rest found oldest =>
      exact ⟨listening, [], by simp [Link.recv, commandsInFlight]⟩
  | listen _ listens kept => exact ⟨kept listening, [], by simp [commandsInFlight]⟩

end Link

namespace System

variable {U E : Type} {callbacks : UserCallbacks U E}

/-- Nobody starts a call while an earlier one of the same client waits, and nobody calls
`nrm_client_send_exit`. -/
def Sequential (system : System U) : Action E → Prop
  | .send id _ call => call ≠ .sendExit ∧ (system.clients id).waiting = []
  | _ => True

instance (system : System U) (action : Action E) : Decidable (system.Sequential action) :=
  match action with
  | .send id _ call =>
      inferInstanceAs (Decidable (call ≠ .sendExit ∧ (system.clients id).waiting = []))
  | .forward _ | .accept _ | .handle _ _ | .timer _ | .deliver | .route _ | .recv _ _
  | .setActuateListener _ | .startActuateListener _ => isTrue trivial

def commandsTo (system : System U) (client : ClientId) : List Tagged :=
  (system.addressed client).filter fun tagged => tagged.msg.isCommand

/-- Those that have not reached the client's broker. -/
def commandsInFlight (system : System U) (client : ClientId) : List Tagged :=
  (system.link client).commandsInFlight

/-- A run in which every client makes its calls one after the other. -/
abbrev SequentialRun (callbacks : UserCallbacks U E) :=
  Data.Run fun (before : System U) action after =>
    before.Sequential action ∧ before.step callbacks action = .ok after

theorem noExit_of_sequential {system : System U} {action : Action E}
    (sequential : system.Sequential action) (client : ClientId) : action.NoExit client := by
  cases action with
  | send id thread call => exact fun _ => sequential.1
  | _ => trivial

theorem inTurn_of_single {system next : System U} {action : Action E}
    (stepped : system.step callbacks action = .ok next) {client : ClientId}
    (single : (system.clients client).waiting.length ≤ 1) :
    (system.link client).InTurn client action := by
  cases action with
  | recv id thread =>
      rintro rfl
      have receiving := alive_eq_ok (show system.recv id thread = .ok next from stepped)
      split at receiving
      · rename_i waiting reply rest found queued
        have listed := List.mem_of_find?_eq_some found
        have own : waiting.thread = thread := by simpa using List.find?_some found
        obtain ⟨only, same⟩ := List.length_eq_one_iff.mp
          (Nat.le_antisymm single (List.length_pos_of_mem listed))
        rw [same] at listed
        simp [link, Client.link, same, ← List.mem_singleton.mp listed, own]
      · cases receiving
  | _ => trivial

theorem single_of_step (disciplined : callbacks.Disciplined) {before after : System U}
    {action : Action E} (sequential : before.Sequential action)
    (stepped : before.step callbacks action = .ok after) {client : ClientId}
    (single : (before.link client).waiting.length ≤ 1) : (after.link client).waiting.length ≤ 1 := by
  have step := step_link disciplined client stepped
  generalize same : before.link client = link at step single
  generalize after.link client = next at step
  cases step with
  | elsewhere => exact single
  | send thread request numbered =>
      have idle : link.waiting = [] := by
        rw [← same]
        exact sequential.2
      simp only [Link.send, idle]
      split <;> simp
  | recv waiting reply rest found oldest =>
      exact Nat.le_trans (List.eraseP_sublist.length_le) single
  | serve frame env request rest emitted oldest answered => exact single
  | push _ messages commands => exact single
  | reply tagged rest oldest isReply => exact single
  | command tagged rest oldest notReply => exact single
  | listen _ listens kept => exact single

theorem SequentialRun.invariant (disciplined : callbacks.Disciplined) {server : Server U}
    {actions : List (Action E)} {system : System U}
    (ran : SequentialRun callbacks (start server) actions system) (client : ClientId) :
    (system.link client).Sound client ∧ (system.link client).Sortable ∧
      (system.link client).waiting.length ≤ 1 := by
  refine ran.invariant_of (motive := fun system => (system.link client).Sound client ∧
    (system.link client).Sortable ∧ (system.link client).waiting.length ≤ 1) ?_ ?_
  · refine ⟨start_sound server client, ⟨?_, ?_, ?_⟩, Nat.zero_le _⟩
    all_goals
      intro tagged member
      cases member
  · rintro before action after ⟨sound, sortable, single⟩ sequential stepped
    have step := step_link disciplined client stepped
    exact ⟨step.sound sound (noExit_of_sequential sequential client) (inTurn_of_single stepped single),
      step.sortable sortable, single_of_step disciplined sequential stepped single⟩

theorem SequentialRun.hears (disciplined : callbacks.Disciplined) {system next : System U}
    {actions : List (Action E)} (ran : SequentialRun callbacks system actions next)
    {client : ClientId} (sortable : (system.link client).Sortable)
    (listening : (system.link client).listening = true) :
    (next.link client).listening = true ∧ (next.link client).Sortable ∧
      ∃ sent, next.addressed client = system.addressed client ++ sent ∧
        (next.clients client).heard ++ next.commandsInFlight client =
          (system.clients client).heard ++ system.commandsInFlight client ++
            sent.filter fun tagged => tagged.msg.isCommand := by
  refine ran.invariant_of (motive := fun next => (next.link client).listening = true ∧
    (next.link client).Sortable ∧ ∃ sent, next.addressed client = system.addressed client ++ sent ∧
      (next.clients client).heard ++ next.commandsInFlight client =
        (system.clients client).heard ++ system.commandsInFlight client ++
          sent.filter fun tagged => tagged.msg.isCommand) ?_ ?_
  · exact ⟨listening, sortable, [], by simp⟩
  · rintro before action after ⟨listens, sorted, sent, addressed, heard⟩ _ stepped
    have step := step_link disciplined client stepped
    obtain ⟨stillListens, more, further, hears⟩ := step.hears sorted listens
    have appended : after.addressed client = before.addressed client ++ more := further
    refine ⟨stillListens, step.sortable sorted, sent ++ more, ?_, ?_⟩
    · rw [appended, addressed, List.append_assoc]
    · rw [List.filter_append, ← List.append_assoc, ← heard]
      exact hears

/-- A step of one of the two brokers towards the client. -/
inductive TowardsClient (client : ClientId) : Action E → Prop where
  | deliver : TowardsClient client .deliver
  | route : TowardsClient client (.route client)

theorem exists_deliver_all (callbacks : UserCallbacks U E) (client : ClientId) (system : System U) :
    ∃ actions last, SequentialRun callbacks system actions last ∧
      (∀ action ∈ actions, TowardsClient client action) ∧ last.outbox = [] ∧
      last.history = system.history ∧ last.link client = system.link client := by
  induction queued : system.outbox generalizing system with
  | nil => exact ⟨[], system, .nil system, by simp, queued, rfl, rfl⟩
  | cons posted rest ih =>
      obtain ⟨next, delivered, remaining, sameHistory⟩ : ∃ next, system.deliver = .ok next ∧
          next.outbox = rest ∧ next.history = system.history := by
        obtain ⟨origin, emit⟩ := posted
        simp only [deliver, queued]
        cases emit with
        | pub topic msg => exact ⟨_, rfl, rfl, rfl⟩
        | send dest msg => exact ⟨_, rfl, rfl, rfl⟩
      obtain ⟨actions, last, ran, brokers, empty, history, link⟩ := ih next remaining
      refine ⟨.deliver :: actions, last, ran.cons ⟨trivial, delivered⟩, ?_, empty,
        history.trans sameHistory, link.trans (deliver_link delivered)⟩
      simpa using ⟨.deliver, brokers⟩

theorem brokerRpcHandler_completes {tagged : Tagged}
    (kind : tagged.msg.isReply = true ∨ ∃ uuid value, tagged.msg = Server.command uuid value)
    (client : Client) :
    ∃ after, client.brokerRpcHandler tagged = .ok after ∧ after.rpcIn = client.rpcIn ∧
      after.aborted = client.aborted := by
  rcases kind with isReply | ⟨uuid, value, command⟩
  · simp only [Client.brokerRpcHandler, isReply, ↓reduceIte]
    exact ⟨_, rfl, rfl, rfl⟩
  · simp only [Client.brokerRpcHandler, command, Server.command_isReply, Bool.false_eq_true,
      ↓reduceIte, Client.actuateCallback]
    split
    · split
      · exact ⟨_, rfl, rfl, rfl⟩
      · exact ⟨_, rfl, rfl, rfl⟩
    · exact ⟨_, rfl, rfl, rfl⟩

theorem exists_route_all (callbacks : UserCallbacks U E) (client : ClientId) (system : System U)
    (alive : (system.clients client).aborted = false) (sortable : (system.link client).Sortable)
    (delivered : system.outbox = []) :
    ∃ actions last, SequentialRun callbacks system actions last ∧
      (∀ action ∈ actions, TowardsClient client action) ∧ last.history = system.history ∧
      (last.link client).inbound = [] := by
  induction queued : (system.clients client).rpcIn generalizing system with
  | nil =>
      exact ⟨[], system, .nil system, by simp, rfl,
        by simp [link, Client.link, queued, delivered, arrivals]⟩
  | cons tagged rest ih =>
      have kind := sortable.kinds tagged (by simp [link, Client.link, queued])
      obtain ⟨after, handled, sameRpc, sameAborted⟩ := brokerRpcHandler_completes kind
        { system.clients client with rpcIn := rest }
      have routed : system.route client = .ok (system.setClient client after) := by
        simp only [route, System.alive]
        rw [if_neg (by simp [alive])]
        simp only [queued, handled]
      have sorted : ((system.setClient client after).link client).Sortable :=
        (route_link (E := E) routed).sortable sortable
      obtain ⟨actions, last, ran, brokers, history, empty⟩ := ih (system.setClient client after)
        (by simpa [setClient, sameAborted] using alive) sorted delivered
        (by simpa [setClient] using sameRpc)
      refine ⟨.route client :: actions, last, ran.cons ⟨trivial, routed⟩, ?_, history, empty⟩
      simpa using ⟨.route, brokers⟩

theorem exists_drain (callbacks : UserCallbacks U E) (client : ClientId) (system : System U)
    (alive : (system.link client).aborted = false) (sortable : (system.link client).Sortable) :
    ∃ actions last, SequentialRun callbacks system actions last ∧
      (∀ action ∈ actions, TowardsClient client action) ∧ last.history = system.history ∧
      (last.link client).inbound = [] := by
  obtain ⟨first, middle, delivered, towards, empty, sameHistory, sameLink⟩ :=
    exists_deliver_all callbacks client system
  rw [← sameLink] at alive sortable
  obtain ⟨second, last, routed, further, history, landed⟩ :=
    exists_route_all callbacks client middle alive sortable empty
  refine ⟨first ++ second, last, delivered.trans routed, ?_, history.trans sameHistory, landed⟩
  rw [List.forall_mem_append]
  exact ⟨towards, further⟩

/-- In a sequential run of any number of clients, every call gets the one reply
to its own request and no command, the listener gets commands only, and from its
registration on it gets each command that was on its way or is sent later, once
and in order: at any moment those not yet heard are in flight, and the brokers
can deliver them. -/
theorem run_disciplined (disciplined : callbacks.Disciplined) (server : Server U)
    {actions : List (Action E)} {system : System U}
    (ran : SequentialRun callbacks (start server) actions system) (client : ClientId) :
    (∀ receipt ∈ (system.clients client).receipts,
      receipt.Correct client (system.served client) ∧ receipt.reply.msg.isCommand = false) ∧
    (∀ tagged ∈ (system.clients client).heard, tagged ∈ system.commandsTo client) ∧
    ((system.clients client).listening = true →
      ∀ later next, SequentialRun callbacks system later next →
        ∃ sent, next.commandsTo client = system.commandsTo client ++ sent ∧
          (next.clients client).heard ++ next.commandsInFlight client =
            (system.clients client).heard ++ system.commandsInFlight client ++ sent ∧
          ∃ brokers last, SequentialRun callbacks next brokers last ∧
            (∀ action ∈ brokers, TowardsClient client action) ∧
            (last.clients client).heard =
              (system.clients client).heard ++ system.commandsInFlight client ++ sent) := by
  obtain ⟨sound, sortable, _⟩ := ran.invariant disciplined client
  refine ⟨fun receipt member => ?_, fun tagged member => ?_, fun listening later next continued => ?_⟩
  · have answers := sound.received receipt member
    exact ⟨sound.correct answers, Msg.not_isCommand_of_isReply answers.isReply⟩
  · obtain ⟨addressed, isCommand⟩ := sortable.heard tagged member
    exact List.mem_filter.mpr ⟨addressed, isCommand⟩
  · obtain ⟨_, sorted, sent, addressed, heard⟩ := continued.hears disciplined sortable listening
    have alive := (SequentialRun.invariant disciplined (ran.trans continued) client).1.alive
    obtain ⟨brokers, last, delivers, towards, history, landed⟩ :=
      exists_drain callbacks client next alive sorted
    refine ⟨sent.filter fun tagged => tagged.msg.isCommand, ?_, heard, brokers, last, delivers,
      towards, ?_⟩
    · simp [commandsTo, addressed]
    · obtain ⟨_, _, more, later, hears⟩ :=
        SequentialRun.hears disciplined (continued.trans delivers) sortable listening
      have none : (last.link client).commandsInFlight = [] := by simp [Link.commandsInFlight, landed]
      have unchanged : last.addressed client = next.addressed client := by
        simp [System.addressed, history]
      have same : more = sent := by simpa [unchanged, addressed] using later.symm
      simpa [System.commandsInFlight, none, same] using hears

def otherClient : ClientId := ⟨[66], by decide⟩

def sampleActuator : Actuator := { Actuator.discreteCreate [97] with u := .choices [1, 2] }

def ownerActuated : List (Action TickEnv) :=
  [.setActuateListener sampleClient, .startActuateListener sampleClient,
    .send sampleClient 0 (.add (.actuator sampleActuator)), .forward sampleClient,
    .accept sampleClient, .handle [] Nrmd.noEnv, .deliver, .route sampleClient,
    .recv sampleClient 0, .send otherClient 0 (.actuate sampleActuator 2), .forward otherClient,
    .accept otherClient, .handle [] Nrmd.noEnv, .deliver, .deliver, .route otherClient,
    .recv otherClient 0, .route sampleClient]

theorem run_disciplined_sample :
    ∃ system, SequentialRun (Nrmd.callbacks ⟨fun _ => 1, fun _ => 0⟩) sampleSystem ownerActuated
        system ∧
      (system.clients sampleClient).listening = true ∧
      (system.clients sampleClient).heard.length = 1 ∧
      (system.clients otherClient).receipts.length = 1 ∧
      (∀ receipt ∈ (system.clients otherClient).receipts,
        receipt.Correct otherClient (system.served otherClient)) ∧
      ∀ tagged ∈ (system.clients sampleClient).heard, tagged ∈ system.commandsTo sampleClient := by
  have accept : Data.accepted sampleStep Sequential sampleSystem ownerActuated = true := by
    decide +kernel
  obtain ⟨system, ran, listening, heard, received⟩ := Data.Run.of_accepted sampleSystem _ accept
    (by decide +kernel : ∀ system ∈ (Data.run sampleStep sampleSystem ownerActuated).toOption,
      (system.clients sampleClient).listening = true ∧
        (system.clients sampleClient).heard.length = 1 ∧
        (system.clients otherClient).receipts.length = 1)
  have disciplined := Nrmd.callbacks_disciplined ⟨fun _ => 1, fun _ => 0⟩
  exact ⟨system, ran, listening, heard, received,
    fun receipt member => ((run_disciplined disciplined Nrmd.fresh ran otherClient).1 receipt member).1,
    (run_disciplined disciplined Nrmd.fresh ran sampleClient).2.1⟩

end System

end LibNrm
