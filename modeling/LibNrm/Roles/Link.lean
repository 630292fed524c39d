import LibNrm.Roles
import LibNrm.Server.Answers

namespace LibNrm

/-! A link is the system reduced to one client: its calls, the requests on their way
to the server and the messages on their way back, each as one queue, whatever
number of hops they have passed.  Every step of the system is a step of the link
of every client, and most of them leave it as it is.
-/

def Posted.arrival (client : ClientId) (posted : Posted) : Option Tagged :=
  match posted.emit with
  | .pub _ _ => none
  | .send dest msg => if stringFromchar dest = client.uuid then some ⟨posted.origin, msg⟩ else none

/-- What a client will get of the things the server posted. -/
def arrivals (client : ClientId) (posted : List Posted) : List Tagged :=
  posted.filterMap (Posted.arrival client)

@[simp] theorem arrivals_append (client : ClientId) (first second : List Posted) :
    arrivals client (first ++ second) = arrivals client first ++ arrivals client second :=
  List.filterMap_append

@[simp] theorem arrivals_pub (client : ClientId) (origin : Origin) (topic : NrmString) (msg : Msg)
    (rest : List Posted) :
    arrivals client (⟨origin, .pub topic msg⟩ :: rest) = arrivals client rest :=
  List.filterMap_cons_none rfl

def Turn.origin (turn : Turn) : Origin := turn.cause.map fun (client, request) => (client, request.id)

theorem arrivals_offered {client : ClientId} {turn : Turn}
    (offered : ∀ emit ∈ turn.emitted, emit.Offered) :
    ∀ tagged ∈ arrivals client turn.posted, ∃ uuid value, tagged.msg = Server.command uuid value := by
  intro tagged arrived
  obtain ⟨posted, member, arrival⟩ := List.mem_filterMap.mp arrived
  obtain ⟨emit, emitted, rfl⟩ := List.mem_map.mp member
  have command := offered emit emitted
  cases emit with
  | pub topic msg => cases arrival
  | send dest msg =>
      simp only [Posted.arrival, Option.ite_none_right_eq_some, Option.some.injEq] at arrival
      rw [← arrival.2]
      exact command

theorem arrivals_reply (client : ClientId) (cause : Option (ClientId × Request))
    (before : List Emit) (dest : ClientId) (msg : Msg) :
    arrivals client (Turn.posted ⟨cause, before ++ [.send dest.uuid msg]⟩) =
      arrivals client (Turn.posted ⟨cause, before⟩) ++
        if dest = client then [⟨Turn.origin ⟨cause, before⟩, msg⟩] else [] := by
  have uuid : stringFromchar dest.uuid = client.uuid ↔ dest = client := by
    rw [stringFromchar_of_nulFree dest.free]
    exact ⟨fun same => by cases dest; cases client; cases same; rfl, fun same => by rw [same]⟩
  have last (posted : Posted) : arrivals client [posted] = (posted.arrival client).toList := by
    unfold arrivals
    cases arrived : posted.arrival client with
    | none => exact List.filterMap_cons_none arrived
    | some tagged => exact List.filterMap_cons_some arrived
  simp only [Turn.posted, List.map_append, arrivals_append, List.map_cons, List.map_nil, last,
    Posted.arrival, uuid]
  split <;> rfl

def Turn.servedTo (client : ClientId) (turn : Turn) : Option (Request × List Emit) :=
  match turn.cause with
  | some (id, request) => if id = client then some (request, turn.emitted) else none
  | none => none

structure Link where
  calls : Nat
  waiting : List Waiting
  /-- on their way to the server, oldest first -/
  requests : List Request
  /-- on their way to the broker of the client, oldest first -/
  inbound : List Tagged
  /-- sorted out by the broker, for the threads -/
  replies : List Tagged
  listening : Bool
  aborted : Bool
  receipts : List Receipt
  heard : List Tagged
  /-- the requests the server has handled, with all it sent meanwhile -/
  served : List (Request × List Emit)
  /-- everything the server ever sent to the client -/
  addressed : List Tagged

/-- The queues of a client continue those of the controller. -/
def Client.link (client : Client) (inbox : List Request) (outbox : List Tagged)
    (served : List (Request × List Emit)) (addressed : List Tagged) : Link where
  calls := client.calls
  waiting := client.waiting
  requests := inbox ++ client.rpcOut ++ client.pipeOut
  inbound := client.rpcIn ++ outbox
  replies := client.pipeIn
  listening := client.cmdCb && client.actuateFn
  aborted := client.aborted
  receipts := client.receipts
  heard := client.heard
  served := served
  addressed := addressed

namespace System

variable {U E : Type}

def requestsOf (client : ClientId) (inbox : List (ClientId × Request)) : List Request :=
  inbox.filterMap fun (id, request) => if id = client then some request else none

def served (system : System U) (client : ClientId) : List (Request × List Emit) :=
  system.history.filterMap (Turn.servedTo client)

def addressed (system : System U) (client : ClientId) : List Tagged :=
  system.history.flatMap fun turn => arrivals client turn.posted

def link (system : System U) (client : ClientId) : Link :=
  (system.clients client).link (requestsOf client system.inbox) (arrivals client system.outbox)
    (system.served client) (system.addressed client)

end System

namespace Link

def send (link : Link) (thread : Nat) (request : Request) : Link :=
  { link with
    calls := link.calls + 1
    requests := link.requests ++ [request]
    waiting := if request.call.blocking then link.waiting ++ [⟨thread, request⟩] else link.waiting }

def push (link : Link) (messages : List Tagged) : Link :=
  { link with
    inbound := link.inbound ++ messages
    addressed := link.addressed ++ messages }

def serve (link : Link) (client : ClientId) (request : Request) (rest : List Request)
    (emitted : List Emit) : Link :=
  { link.push (arrivals client (Turn.posted ⟨some (client, request), emitted⟩)) with
    requests := rest
    served := link.served ++ [(request, emitted)] }

def recv (link : Link) (waiting : Waiting) (reply : Tagged) (rest : List Tagged) : Link :=
  { link with
    waiting := link.waiting.eraseP fun other => other.thread = waiting.thread
    replies := rest
    receipts := link.receipts ++ [⟨waiting.request, reply⟩]
    aborted := match waiting.request.call.finish reply.msg with
      | .ok _ => false
      | .error _ => true }

/-- The steps of the link of a client, each with the action that causes it. -/
inductive Step {E : Type} (client : ClientId) : Link → Action E → Link → Prop where
  | elsewhere (link : Link) (action : Action E) : Step client link action link
  | send (link : Link) (thread : Nat) (request : Request) (numbered : request.id = link.calls) :
      Step client link (.send client thread request.call) (link.send thread request)
  | serve (link : Link) (frame : List UInt8) (env : E) (request : Request) (rest : List Request)
      (emitted : List Emit) (oldest : link.requests = request :: rest)
      (answered : request.call.Answered client.uuid emitted) :
      Step client link (.handle frame env) (link.serve client request rest emitted)
  | push (link : Link) (action : Action E) (messages : List Tagged)
      (commands : ∀ tagged ∈ messages, ∃ uuid value, tagged.msg = Server.command uuid value) :
      Step client link action (link.push messages)
  | reply (link : Link) (tagged : Tagged) (rest : List Tagged)
      (oldest : link.inbound = tagged :: rest) (isReply : tagged.msg.isReply = true) :
      Step client link (.route client)
        { link with inbound := rest, replies := link.replies ++ [tagged] }
  | command (link : Link) (tagged : Tagged) (rest : List Tagged)
      (oldest : link.inbound = tagged :: rest) (isCommand : tagged.msg.isReply = false) :
      Step client link (.route client)
        { link with
          inbound := rest
          heard := if link.listening then link.heard ++ [tagged] else link.heard }
  | recv (link : Link) (waiting : Waiting) (reply : Tagged) (rest : List Tagged)
      (found : link.waiting.find? (fun other => other.thread = waiting.thread) = some waiting)
      (oldest : link.replies = reply :: rest) :
      Step client link (.recv client waiting.thread) (link.recv waiting reply rest)
  | listen (link : Link) (action : Action E) (listening : Bool)
      (kept : link.listening = true → listening = true) :
      Step client link action { link with listening := listening }

end Link

namespace System

variable {U E : Type} {callbacks : UserCallbacks U E}

theorem alive_eq_ok {system next : System U} {id : ClientId}
    {act : Client → Except Stop (System U)} (stepped : system.alive id act = .ok next) :
    act (system.clients id) = .ok next := by
  simp only [alive] at stepped
  split at stepped
  · cases stepped
  · exact stepped

theorem link_setClient_same (system : System U) (id : ClientId) (client : Client) :
    (system.setClient id client).link id =
      client.link (requestsOf id system.inbox) (arrivals id system.outbox) (system.served id)
        (system.addressed id) := by
  simp only [link, setClient, Function.update_self]
  rfl

theorem link_setClient_other (system : System U) {id other : ClientId} (distinct : other ≠ id)
    (client : Client) : (system.setClient id client).link other = system.link other := by
  simp only [link, setClient, Function.update_of_ne distinct]
  rfl

variable {system next : System U} {client : ClientId}

theorem send_link {id : ClientId} {thread : Nat} {call : Call}
    (stepped : system.send id thread call = .ok next) :
    Link.Step (E := E) client (system.link client) (.send id thread call) (next.link client) := by
  have sending := alive_eq_ok stepped
  split at sending
  · cases sending
  · split at sending
    · cases sending
    · cases sending
      exact .elsewhere _ _
    · rename_i msg built
      cases sending
      by_cases same : client = id
      · subst same
        rw [link_setClient_same]
        have moved : Link.Step (E := E) client (system.link client) (.send client thread call)
            ((system.link client).send thread ⟨(system.clients client).calls, call, msg, built⟩) :=
          .send _ thread ⟨_, call, msg, built⟩ rfl
        simpa only [link, Client.link, Client.roleSend, Link.send, List.append_assoc] using moved
      · rw [link_setClient_other system same]
        exact .elsewhere _ _

theorem forward_link {id : ClientId} (stepped : system.forward id = .ok next) :
    next.link client = system.link client := by
  have forwarding := alive_eq_ok stepped
  split at forwarding
  · cases forwarding
  · rename_i request rest queued
    cases forwarding
    by_cases same : client = id
    · subst same
      rw [link_setClient_same]
      simp only [link, Client.link, queued, List.append_assoc, List.cons_append, List.nil_append]
    · exact link_setClient_other system same _

theorem accept_link {id : ClientId} (stepped : system.accept id = .ok next) :
    next.link client = system.link client := by
  simp only [accept] at stepped
  split at stepped
  · cases stepped
  · rename_i request rest queued
    cases stepped
    by_cases same : client = id
    · subst same
      simp [link, Client.link, setClient, requestsOf, queued, served, addressed]
    · have skipped : ¬ id = client := fun equal => same equal.symm
      simp [link, Client.link, setClient, requestsOf, served, addressed, same, skipped]

theorem deliver_link (stepped : system.deliver = .ok next) :
    next.link client = system.link client := by
  simp only [deliver] at stepped
  split at stepped
  · cases stepped
  · rename_i origin topic msg rest posted
    cases stepped
    simp [link, Client.link, posted, served, addressed]
  · rename_i origin dest msg rest posted
    cases stepped
    by_cases same : client = ⟨stringFromchar dest, stringFromchar_nulFree dest⟩
    · subst same
      simp [link, Client.link, setClient, posted, arrivals, Posted.arrival, served, addressed]
    · have skipped : ¬ stringFromchar dest = client.uuid := by
        intro equal
        apply same
        cases client
        cases equal
        rfl
      simp [link, Client.link, setClient, posted, arrivals, Posted.arrival, served, addressed, same,
        skipped]

theorem after_link (system : System U) (cause : Option (ClientId × Request)) (outcome : Outcome U) :
    (system.after cause outcome).link client =
      { (system.link client).push (arrivals client (Turn.posted ⟨cause, outcome.emitted⟩)) with
        served := system.served client ++
          (Turn.servedTo client ⟨cause, outcome.emitted⟩).toList } := by
  have appended : (system.after cause outcome).served client = system.served client ++
      (Turn.servedTo client ⟨cause, outcome.emitted⟩).toList := by
    simp only [served, after, List.filterMap_append]
    cases own : Turn.servedTo client ⟨cause, outcome.emitted⟩ with
    | none => simp [own]
    | some entry => simp [own]
  simp only [link, appended]
  simp [Client.link, after, Link.push, addressed]

theorem timer_link (disciplined : callbacks.Disciplined) {env : E}
    (stepped : system.timer callbacks env = .ok next) :
    Link.Step client (system.link client) (.timer env) (next.link client) := by
  obtain ⟨outcome, rfl, offered⟩ : ∃ outcome, next = system.after none outcome ∧
      ∀ emit ∈ outcome.emitted, emit.Offered := by
    simp only [timer] at stepped
    split at stepped
    · cases stepped
      exact ⟨_, rfl, by simp⟩
    · rename_i timer _ set
      split at stepped
      · cases stepped
      · rename_i outcome handled
        cases stepped
        exact ⟨outcome, rfl, disciplined.timer timer set env _ outcome handled⟩
    · cases stepped
  rw [after_link]
  have pushed : Link.Step client (system.link client) (.timer env)
      ((system.link client).push (arrivals client (Turn.posted ⟨none, outcome.emitted⟩))) :=
    .push _ _ _ (arrivals_offered offered)
  simpa [Link.push, Turn.servedTo, link, Client.link] using pushed

theorem handle_link (disciplined : callbacks.Disciplined) {frame : List UInt8} {env : E}
    (stepped : system.handle callbacks frame env = .ok next) :
    Link.Step client (system.link client) (.handle frame env) (next.link client) := by
  simp only [handle] at stepped
  split at stepped
  · rename_i id request rest _ queued
    split at stepped
    · cases stepped
    · rename_i outcome handled
      cases stepped
      have answered := Server.roleCallback_answers disciplined request.built handled
      rw [after_link]
      by_cases same : id = client
      · subst same
        have served : Link.Step id (system.link id) (.handle frame env)
            ((system.link id).serve id request (requestsOf id rest ++
              (system.clients id).rpcOut ++ (system.clients id).pipeOut) outcome.emitted) := by
          refine .serve _ frame env request _ outcome.emitted ?_ answered
          simp [link, Client.link, requestsOf, queued]
        simpa [Link.serve, Link.push, Turn.servedTo, link, Client.link, System.served,
          System.addressed] using served
      · have pushed : Link.Step client (system.link client) (.handle frame env)
            ((system.link client).push
              (arrivals client (Turn.posted ⟨some (id, request), outcome.emitted⟩))) := by
          refine .push _ _ _ ?_
          cases answered with
          | reply before msg expected offered sent isReply finishes =>
              rw [sent, arrivals_reply]
              simp only [same, ↓reduceIte, List.append_nil]
              exact arrivals_offered offered
          | event time sensor scope value isEvent offered => exact arrivals_offered offered
        simpa [Link.push, Turn.servedTo, same, link, Client.link, requestsOf, queued,
          System.served, System.addressed] using pushed
  · cases stepped

theorem route_link {id : ClientId} (stepped : system.route id = .ok next) :
    Link.Step (E := E) client (system.link client) (.route id) (next.link client) := by
  have routing := alive_eq_ok stepped
  split at routing
  · cases routing
  · rename_i tagged rest queued
    split at routing
    · cases routing
    · rename_i after handled
      cases routing
      by_cases same : client = id
      · subst same
        rw [link_setClient_same]
        have oldest : (system.link client).inbound =
            tagged :: (rest ++ arrivals client system.outbox) := by
          simp [link, Client.link, queued]
        simp only [Client.brokerRpcHandler] at handled
        split at handled
        · rename_i isReply
          cases handled
          exact .reply (system.link client) tagged _ oldest isReply
        · rename_i isCommand
          have moved : Link.Step (E := E) client (system.link client) (.route client)
              { system.link client with
                inbound := rest ++ arrivals client system.outbox
                heard := if (system.link client).listening then (system.link client).heard ++ [tagged]
                  else (system.link client).heard } :=
            .command _ tagged _ oldest (by simpa using isCommand)
          split at handled
          · rename_i started
            simp only [Client.actuateCallback] at handled
            split at handled
            · rename_i set
              obtain ⟨member, _, reading⟩ := Exec.bind_eq_ok.mp handled
              obtain ⟨_, _, done⟩ := Exec.bind_eq_ok.mp reading
              cases done
              simpa [link, Client.link, started, set] using moved
            · rename_i unset
              cases handled
              simpa [link, Client.link, unset] using moved
          · rename_i stopped
            cases handled
            simpa [link, Client.link, stopped] using moved
      · rw [link_setClient_other system same]
        exact .elsewhere _ _

theorem recv_link {id : ClientId} {thread : Nat} (stepped : system.recv id thread = .ok next) :
    Link.Step (E := E) client (system.link client) (.recv id thread) (next.link client) := by
  have receiving := alive_eq_ok stepped
  split at receiving
  · rename_i waiting reply rest found queued
    cases receiving
    by_cases same : client = id
    · subst same
      rw [link_setClient_same]
      have own : waiting.thread = thread := by simpa using List.find?_some found
      subst own
      exact .recv (system.link client) waiting reply rest found queued
    · rw [link_setClient_other system same]
      exact .elsewhere _ _
  · cases receiving

theorem listen_link (id : ClientId) (action : Action E) (cmdCb actuateFn : Bool)
    (kept : ((system.clients id).cmdCb && (system.clients id).actuateFn) = true →
      (cmdCb && actuateFn) = true) :
    Link.Step client (system.link client) action ((system.setClient id
      { system.clients id with cmdCb := cmdCb, actuateFn := actuateFn }).link client) := by
  by_cases same : client = id
  · subst same
    rw [link_setClient_same]
    exact .listen (system.link client) action (cmdCb && actuateFn) kept
  · rw [link_setClient_other system same]
    exact .elsewhere _ _

/-- The refinement: what a step of the system does to the link of each client. -/
theorem step_link (disciplined : callbacks.Disciplined) (client : ClientId) {action : Action E}
    (stepped : system.step callbacks action = .ok next) :
    Link.Step client (system.link client) action (next.link client) := by
  cases action with
  | send id thread call => exact send_link stepped
  | forward id =>
      rw [forward_link stepped]
      exact .elsewhere _ _
  | accept id =>
      rw [accept_link stepped]
      exact .elsewhere _ _
  | handle frame env => exact handle_link disciplined stepped
  | timer env => exact timer_link disciplined stepped
  | deliver =>
      rw [deliver_link stepped]
      exact .elsewhere _ _
  | route id => exact route_link stepped
  | recv id thread => exact recv_link stepped
  | setActuateListener id =>
      simp only [step, setActuateListener] at stepped
      cases alive_eq_ok stepped
      exact listen_link id _ (system.clients id).cmdCb true (by simp +contextual)
  | startActuateListener id =>
      simp only [step, startActuateListener] at stepped
      cases alive_eq_ok stepped
      exact listen_link id _ true (system.clients id).actuateFn (by simp)

end System

end LibNrm
