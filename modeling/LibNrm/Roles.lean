import LibNrm.Client
import Mathlib.Logic.Function.Basic

namespace LibNrm

/-! A client process has any number of threads sharing one `nrm_client_t`, and a
broker thread that owns its socket.  The controller has a broker of its own
between the sockets and the server.  Requests travel

  thread - pipe - client broker - rpc - controller broker - pipe - server

and everything the server sends travels back the same way.  Pipes and sockets
are reliable and keep their order.  One step is one critical section of a
thread, or one call of a handler by a broker or by the server; a scheduler picks
the steps in any order.

A request carries the number of its call and a message from the server the
request it was sent for.  Neither exists in the code; they are there to say
which call a message belongs to, and no step looks at them.
-/

/-- The identity of a client's socket, an `nrm_uuid_t` written as a C string. -/
structure ClientId where
  uuid : NrmString
  free : NulFree uuid
deriving DecidableEq

structure Request where
  id : Nat
  call : Call
  msg : Msg
  built : call.request = .ok (some msg)

abbrev Origin := Option (ClientId × Nat)

/-- A message of the server with the request it was sent for; a timer has none. -/
structure Tagged where
  origin : Origin
  msg : Msg

/-- A thread between its two critical sections. -/
structure Waiting where
  thread : Nat
  request : Request

structure Receipt where
  request : Request
  reply : Tagged

/-- Something the server handed to its role. -/
structure Posted where
  origin : Origin
  emit : Emit

/-- What one call of a server callback sent, and the request that caused it. -/
structure Turn where
  cause : Option (ClientId × Request)
  emitted : List Emit

def Turn.posted (turn : Turn) : List Posted :=
  turn.emitted.map fun emit => ⟨turn.cause.map fun (client, request) => (client, request.id), emit⟩

structure Client where
  /-- calls made so far -/
  calls : Nat
  /-- the calls that wait for a reply, oldest first -/
  waiting : List Waiting
  /-- from the threads to the broker -/
  pipeOut : List Request
  /-- from the broker to the controller -/
  rpcOut : List Request
  /-- from the controller to the broker -/
  rpcIn : List Tagged
  /-- from the broker to the threads -/
  pipeIn : List Tagged
  /-- `actuate_fn` is set -/
  actuateFn : Bool
  /-- `cmd_cb.fn` is set -/
  cmdCb : Bool
  /-- an assertion has failed in some thread, which ended the process -/
  aborted : Bool
  /-- what each call received -/
  receipts : List Receipt
  /-- what `actuate_fn` was called with -/
  heard : List Tagged

namespace Client

def create : Client := ⟨0, [], [], [], [], [], false, false, false, [], []⟩

def waits (client : Client) (thread : Nat) : Bool :=
  client.waiting.any fun waiting => waiting.thread = thread

/-- The first critical section: `nrm_role_send`. -/
def roleSend (client : Client) (thread : Nat) (request : Request) : Client :=
  { client with
    calls := client.calls + 1
    pipeOut := client.pipeOut ++ [request]
    waiting :=
      if request.call.blocking then client.waiting ++ [⟨thread, request⟩] else client.waiting }

/-- The second critical section: `nrm_role_recv`, and the end of the call. -/
def roleRecv (client : Client) (waiting : Waiting) (reply : Tagged) (rest : List Tagged) : Client :=
  { client with
    waiting := client.waiting.eraseP fun other => other.thread = waiting.thread
    pipeIn := rest
    receipts := client.receipts ++ [⟨waiting.request, reply⟩]
    aborted := match waiting.request.call.finish reply.msg with
      | .ok _ => false
      | .error _ => true }

def actuateCallback (client : Client) (tagged : Tagged) : Exec Client :=
  if client.actuateFn then do
    let _ ← deref (← tagged.msg.actuate)
    pure { client with heard := client.heard ++ [tagged] }
  else .ok client

def brokerRpcHandler (client : Client) (tagged : Tagged) : Exec Client :=
  if tagged.msg.isReply then .ok { client with pipeIn := client.pipeIn ++ [tagged] }
  else if client.cmdCb then client.actuateCallback tagged
  else .ok client

end Client

structure System (U : Type) where
  clients : ClientId → Client
  /-- from the controller broker to the server -/
  inbox : List (ClientId × Request)
  /-- from the server to the controller broker -/
  outbox : List Posted
  server : Server U
  running : Bool
  /-- the calls of server callbacks so far -/
  history : List Turn

inductive Action (E : Type) where
  /-- a thread enters a call and passes its first critical section -/
  | send (client : ClientId) (thread : Nat) (call : Call)
  /-- `nrm_client_broker_pipe_handler` -/
  | forward (client : ClientId)
  /-- `nrm_controller_broker_rpc_handler` -/
  | accept (client : ClientId)
  /-- `nrm_server_role_callback` -/
  | handle (frame : List UInt8) (env : E)
  /-- `nrm_server_timer_callback` -/
  | timer (env : E)
  /-- `nrm_controller_broker_pipe_handler` -/
  | deliver
  /-- `nrm_client_broker_rpc_handler` -/
  | route (client : ClientId)
  /-- a thread passes its second critical section and ends its call -/
  | recv (client : ClientId) (thread : Nat)
  /-- `nrm_client_set_actuate_listener` -/
  | setActuateListener (client : ClientId)
  /-- `nrm_client_start_actuate_listener` -/
  | startActuateListener (client : ClientId)

inductive Stop where
  | disabled
  | fault (fault : Fault)

namespace System

variable {U E : Type}

def start (server : Server U) : System U := ⟨fun _ => .create, [], [], server, true, []⟩

def setClient (system : System U) (id : ClientId) (client : Client) : System U :=
  { system with clients := Function.update system.clients id client }

def alive (system : System U) (id : ClientId) (act : Client → Except Stop (System U)) :
    Except Stop (System U) :=
  let client := system.clients id
  if client.aborted then .error .disabled else act client

def send (system : System U) (id : ClientId) (thread : Nat) (call : Call) :
    Except Stop (System U) :=
  system.alive id fun client =>
    if client.waits thread then .error .disabled
    else
      match built : call.request with
      | .error fault => .error (.fault fault)
      -- the call returns to its caller without sending anything
      | .ok none => .ok system
      | .ok (some msg) =>
          .ok (system.setClient id (client.roleSend thread ⟨client.calls, call, msg, built⟩))

def forward (system : System U) (id : ClientId) : Except Stop (System U) :=
  system.alive id fun client =>
    match client.pipeOut with
    | [] => .error .disabled
    | request :: rest =>
        .ok (system.setClient id
          { client with pipeOut := rest, rpcOut := client.rpcOut ++ [request] })

def accept (system : System U) (id : ClientId) : Except Stop (System U) :=
  let client := system.clients id
  match client.rpcOut with
  | [] => .error .disabled
  | request :: rest =>
      .ok { system.setClient id { client with rpcOut := rest } with
        inbox := system.inbox ++ [(id, request)] }

/-- The server after one of its callbacks. -1 ends its loop. -/
def after (system : System U) (cause : Option (ClientId × Request)) (outcome : Outcome U) :
    System U :=
  let turn : Turn := ⟨cause, outcome.emitted⟩
  { system with
    server := outcome.server
    running := outcome.code ≠ -1
    outbox := system.outbox ++ turn.posted
    history := system.history ++ [turn] }

def handle (callbacks : UserCallbacks U E) (system : System U) (frame : List UInt8) (env : E) :
    Except Stop (System U) :=
  match system.running, system.inbox with
  | true, (id, request) :: rest =>
      match system.server.roleCallback callbacks ⟨id.uuid, some request.msg, frame, env⟩ with
      | .error fault => .error (.fault fault)
      | .ok outcome => .ok ({ system with inbox := rest }.after (some (id, request)) outcome)
  | _, _ => .error .disabled

def timer (callbacks : UserCallbacks U E) (system : System U) (env : E) : Except Stop (System U) :=
  match system.running, callbacks.timer with
  | true, none => .ok (system.after none ⟨0, system.server, []⟩)
  | true, some timer =>
      match timer env system.server with
      | .error fault => .error (.fault fault)
      | .ok outcome => .ok (system.after none outcome)
  | false, _ => .error .disabled

/-- The frame that names the destination is a C string. -/
def deliver (system : System U) : Except Stop (System U) :=
  match system.outbox with
  | [] => .error .disabled
  | ⟨_, .pub _ _⟩ :: rest => .ok { system with outbox := rest }
  | ⟨origin, .send dest msg⟩ :: rest =>
      let id : ClientId := ⟨stringFromchar dest, stringFromchar_nulFree dest⟩
      let client := system.clients id
      .ok { system.setClient id { client with rpcIn := client.rpcIn ++ [⟨origin, msg⟩] } with
        outbox := rest }

def route (system : System U) (id : ClientId) : Except Stop (System U) :=
  system.alive id fun client =>
    match client.rpcIn with
    | [] => .error .disabled
    | tagged :: rest =>
        match Client.brokerRpcHandler { client with rpcIn := rest } tagged with
        | .error fault => .error (.fault fault)
        | .ok client => .ok (system.setClient id client)

def recv (system : System U) (id : ClientId) (thread : Nat) : Except Stop (System U) :=
  system.alive id fun client =>
    match client.waiting.find? fun waiting => waiting.thread = thread, client.pipeIn with
    | some waiting, reply :: rest =>
        .ok (system.setClient id (client.roleRecv waiting reply rest))
    | _, _ => .error .disabled

def setActuateListener (system : System U) (id : ClientId) : Except Stop (System U) :=
  system.alive id fun client => .ok (system.setClient id { client with actuateFn := true })

def startActuateListener (system : System U) (id : ClientId) : Except Stop (System U) :=
  system.alive id fun client => .ok (system.setClient id { client with cmdCb := true })

def step (callbacks : UserCallbacks U E) (system : System U) : Action E → Except Stop (System U)
  | .send id thread call => system.send id thread call
  | .forward id => system.forward id
  | .accept id => system.accept id
  | .handle frame env => system.handle callbacks frame env
  | .timer env => system.timer callbacks env
  | .deliver => system.deliver
  | .route id => system.route id
  | .recv id thread => system.recv id thread
  | .setActuateListener id => system.setActuateListener id
  | .startActuateListener id => system.startActuateListener id

end System

end LibNrm
