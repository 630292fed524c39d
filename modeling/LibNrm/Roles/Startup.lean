import LibNrm.Data.Run
import LibNrm.Utils.Basic

namespace LibNrm

/-! `nrm_role_client_create_fromparams` starts a thread with arguments that stand in its
own frame, and `nrm_role_client_destroy` ends it.  The two talk through the pipe of the
actor: the broker by signals, the creator by control messages.  One step is one call of
either side, with a result that the environment picks, in any order.  `transmit` is
`nrm_transmit`: when it is 0 the functions of `net.c` return at once.
-/

/-- Something that is created and destroyed. -/
inductive Slot where
  | unused
  | live
  | released
deriving DecidableEq, Repr

def Slot.release : Slot → Exec Slot
  | .unused => .ok .unused
  | .live => .ok .released
  | .released => .error .danglingPointer

inductive CreatorPc where
  | enter
  /-- `zactor_new` -/
  | actorNew
  /-- the handshake in `zactor_new` -/
  | actorWait
  /-- `zsock_wait` -/
  | initWait
  /-- `zactor_destroy`, after a failure or by `nrm_role_client_destroy` -/
  | actorDestroy (failure : Bool)
  | endWait (failure : Bool)
  | freeRole (failure : Bool)
  /-- the role is in the hands of its user -/
  | returned
  /-- NULL was returned -/
  | failed
  | destroyed
deriving DecidableEq, Repr

def CreatorPc.rank : CreatorPc → Nat
  | .enter => 23
  | .actorNew => 22
  | .actorWait => 6
  | .initWait => 5
  | .actorDestroy _ => 4
  | .endWait _ => 2
  | .freeRole _ => 1
  | .returned | .failed | .destroyed => 0

def CreatorPc.waits : CreatorPc → Bool
  | .actorWait | .initWait | .endWait _ => true
  | _ => false

inductive BrokerPc where
  | absent
  | enter
  | calloc
  | rpcInit
  | rpcConnect
  | subInit
  | subConnect
  | loopNew
  | ready
  /-- `zloop_start` -/
  | serving
  | loopDestroy
  | cleanupSub
  | cleanupRpc
  | cleanup
  /-- out of `nrm_client_broker_fn` -/
  | returned
  | ended
deriving DecidableEq, Repr

def BrokerPc.rank : BrokerPc → Nat
  | .enter => 14
  | .calloc => 13
  | .rpcInit => 12
  | .rpcConnect => 11
  | .subInit => 10
  | .subConnect => 9
  | .loopNew => 8
  | .ready => 7
  | .serving => 6
  | .loopDestroy => 5
  | .cleanupSub => 4
  | .cleanupRpc => 3
  | .cleanup => 2
  | .returned => 1
  | .absent | .ended => 0

inductive Ctrl (M : Type) where
  | send (msg : M)
  | sub
  | term
deriving DecidableEq, Repr

def Ctrl.msg? {M : Type} : Ctrl M → Option M
  | .send msg => some msg
  | .sub | .term => none

structure Startup (M : Type) where
  creator : CreatorPc
  broker : BrokerPc
  /-- all signals of the broker, of which the creator has heard the first ones -/
  told : List Int
  heard : Nat
  pipe : List (Ctrl M)
  /-- `bargs` -/
  frame : Bool
  role : Slot
  self : Slot
  rpc : Slot
  sub : Slot
  loop : Slot
  /-- what `nrm_role_client_send` was given, and what went to the socket -/
  handed : List M
  sent : List M

namespace Startup

variable {M : Type}

def start : Startup M :=
  ⟨.enter, .absent, [], 0, [], false, .unused, .unused, .unused, .unused, .unused, [], []⟩

/-- `zsock_signal`, whose status is a byte. -/
def signal (state : Startup M) (status : Int) : Startup M :=
  { state with told := state.told ++ [status % 256] }

/-- Reading `params`. -/
def readParams (state : Startup M) : Exec Unit :=
  if state.frame then .ok () else .error .danglingPointer

/-- Signal the error and go to a label. -/
def giveUp (state : Startup M) (status : Int) (label : BrokerPc) : Startup M :=
  { state.signal status with broker := label }

/-- `nrm_client_broker_pipe_handler`, and the end of the loop. -/
def pipeHandler (state : Startup M) : Ctrl M → Startup M
  | .send msg => { state with sent := state.sent ++ [msg] }
  | .sub => state
  | .term => { state with broker := .loopDestroy }

/-- What a call of `net.c` returns. -/
def netResult (transmit : Bool) (result : Int) : Int := if transmit then result else 0

/-- A step of `nrm_client_broker_fn`, or of the actor around it; the result is that of
the call made there, where zero is success. -/
def brokerStep (transmit : Bool) (state : Startup M) (result : Int) : Exec (Startup M) :=
  match state.broker with
  | .absent | .ended => .ok state
  | .enter => .ok { state.signal 0 with broker := .calloc }
  | .calloc =>
      if result ≠ 0 then .ok (state.giveUp nrmEnomem .returned)
      else do
        state.readParams
        pure { state with self := .live, broker := .rpcInit }
  | .rpcInit =>
      let err := netResult transmit result
      if err ≠ 0 then .ok (state.giveUp (-err) .cleanup)
      else .ok { state with rpc := if transmit then .live else .unused, broker := .rpcConnect }
  | .rpcConnect => do
      state.readParams
      let err := netResult transmit result
      if err ≠ 0 then pure (state.giveUp (-err) .cleanupRpc)
      else pure { state with broker := .subInit }
  | .subInit =>
      let err := netResult transmit result
      if err ≠ 0 then .ok (state.giveUp (-err) .cleanupRpc)
      else .ok { state with sub := if transmit then .live else .unused, broker := .subConnect }
  | .subConnect => do
      state.readParams
      let err := netResult transmit result
      if err ≠ 0 then pure (state.giveUp (-err) .cleanupSub)
      else pure { state with broker := .loopNew }
  | .loopNew =>
      if result ≠ 0 then .ok (state.giveUp nrmFailure .cleanupSub)
      else do
        -- `zloop_reader` asserts that it is given a socket
        assert (state.rpc = .live ∧ state.sub = .live)
        pure { state with loop := .live, broker := .ready }
  | .ready => .ok { state.signal 0 with broker := .serving }
  | .serving =>
      -- an interrupted loop ends as one that was told to
      if result ≠ 0 then .ok { state with broker := .loopDestroy }
      else
        match state.pipe with
        | [] => .ok state
        | msg :: rest => .ok (pipeHandler { state with pipe := rest } msg)
  | .loopDestroy => do
      let loop ← state.loop.release
      pure { state with loop := loop, broker := .cleanupSub }
  | .cleanupSub => do
      let sub ← state.sub.release
      pure { state with sub := sub, broker := .cleanupRpc }
  | .cleanupRpc => do
      let rpc ← state.rpc.release
      pure { state with rpc := rpc, broker := .cleanup }
  | .cleanup => do
      let self ← state.self.release
      pure { state with self := self, broker := .returned }
  | .returned => .ok { state.signal 0 with broker := .ended }

def hear (state : Startup M) : Int × Startup M :=
  (state.told.getD state.heard 0, { state with heard := state.heard + 1 })

/-- `zsock_wait`, which fails when it is interrupted. -/
def wait (state : Startup M) (result : Int) : Int × Startup M :=
  if result ≠ 0 then (-1, state) else state.hear

/-- A step of `nrm_role_client_create_fromparams` or `nrm_role_client_destroy`.  czmq drops
the result of its own two waits. -/
def creatorStep (state : Startup M) (result : Int) : Exec (Startup M) :=
  match state.creator with
  | .enter =>
      if result ≠ 0 then .ok { state with creator := .failed }
      else .ok { state with role := .live, frame := true, creator := .actorNew }
  | .actorNew =>
      if result ≠ 0 then .ok { state with creator := .freeRole true }
      else .ok { state with broker := .enter, creator := .actorWait }
  | .actorWait => .ok { (state.wait result).2 with creator := .initWait }
  | .initWait =>
      let (err, state) := state.wait result
      if err ≠ 0 then .ok { state with creator := .actorDestroy true }
      else .ok { state with frame := false, creator := .returned }
  | .actorDestroy failure =>
      .ok { state with pipe := state.pipe ++ [.term], creator := .endWait failure }
  | .endWait failure => .ok { (state.wait result).2 with creator := .freeRole failure }
  | .freeRole failure => do
      let role ← state.role.release
      pure { state with role := role, frame := false, creator := if failure then .failed else .destroyed }
  | .returned | .failed | .destroyed => .ok state

inductive Action (M : Type) where
  | creator (result : Int)
  | broker (result : Int)
  /-- `nrm_role_client_send` -/
  | send (msg : M)
  /-- `nrm_role_client_sub` -/
  | subscribe
  /-- a message on one of the sockets -/
  | network
  /-- `nrm_role_client_destroy` -/
  | destroy
deriving DecidableEq

def step (transmit : Bool) (state : Startup M) : Action M → Exec (Startup M)
  | .creator result => state.creatorStep result
  | .broker result => state.brokerStep transmit result
  | .send msg => .ok { state with pipe := state.pipe ++ [.send msg], handed := state.handed ++ [msg] }
  | .subscribe => .ok { state with pipe := state.pipe ++ [.sub] }
  -- the handlers look up their callbacks in the role
  | .network => if state.role = .live then .ok state else .error .danglingPointer
  | .destroy => .ok { state with creator := .actorDestroy false }

/-- The creator waits for a signal or is over, unless its wait is interrupted. -/
def creatorMoves (state : Startup M) (result : Int) : Bool :=
  match state.creator with
  | .actorWait | .initWait | .endWait _ => result ≠ 0 || state.heard < state.told.length
  | .returned | .failed | .destroyed => false
  | .enter | .actorNew | .actorDestroy _ | .freeRole _ => true

def brokerMoves (state : Startup M) (result : Int) : Bool :=
  match state.broker with
  | .absent | .ended => false
  | .serving => result ≠ 0 || !state.pipe.isEmpty
  | _ => true

/-- A thread takes a step unless it waits or is over; the role is used between its
creation and its destruction, and errors are small numbers. -/
def Allowed (state : Startup M) : Action M → Prop
  | .creator result => state.creatorMoves result
  | .broker result => -256 < result ∧ result < 256 ∧ state.brokerMoves result
  | .send _ | .subscribe | .destroy => state.creator = .returned
  | .network => state.broker = .serving

instance (state : Startup M) : ∀ action, Decidable (state.Allowed action)
  | .creator result => inferInstanceAs (Decidable (state.creatorMoves result = true))
  | .broker result =>
      inferInstanceAs (Decidable (-256 < result ∧ result < 256 ∧ state.brokerMoves result = true))
  | .send _ | .subscribe | .destroy => inferInstanceAs (Decidable (state.creator = .returned))
  | .network => inferInstanceAs (Decidable (state.broker = .serving))

/-- A signal of the system ends a wait of the creator or the loop of the broker. -/
def Interrupts (state : Startup M) : Action M → Prop
  | .creator result => state.creator.waits ∧ result ≠ 0
  | .broker result => state.broker = .serving ∧ result ≠ 0
  | .send _ | .subscribe | .network | .destroy => False

instance (state : Startup M) : ∀ action, Decidable (state.Interrupts action)
  | .creator result => inferInstanceAs (Decidable (state.creator.waits = true ∧ result ≠ 0))
  | .broker result => inferInstanceAs (Decidable (state.broker = .serving ∧ result ≠ 0))
  | .send _ | .subscribe | .network | .destroy => .isFalse id

end Startup

end LibNrm
