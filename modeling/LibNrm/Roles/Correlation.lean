import LibNrm.Data.Pipeline
import LibNrm.Data.Run
import LibNrm.Roles.Link

namespace LibNrm

/-! Replies carry nothing that names their request: a call gets whatever the broker
has put into the pipe first.  The server answers in the order of the requests, so
the oldest reply is for the oldest call that still waits.
-/

def Emit.reply? : Emit → Option (NrmString × Msg)
  | .send dest msg => if msg.isCommand then none else some (dest, msg)
  | .pub _ _ => none

/-- Every reply sent to anyone while the request was handled. -/
def repliesFor (served : List (Request × List Emit)) (id : Nat) : List (NrmString × Msg) :=
  (served.filter fun entry => entry.1.id = id).flatMap fun entry => entry.2.filterMap Emit.reply?

/-- A call got the one reply that was sent for its own request, and its assertions on it
hold. -/
structure Receipt.Correct (client : ClientId) (served : List (Request × List Emit))
    (receipt : Receipt) : Prop where
  own : receipt.reply.origin = some (client, receipt.request.id)
  only : repliesFor served receipt.request.id = [(client.uuid, receipt.reply.msg)]
  finishes : (receipt.request.call.finish receipt.reply.msg).Completes

@[simp] theorem Server.command_isReply (uuid : NrmString) (value : ℚ) :
    (command uuid value).isReply = false := rfl

theorem Msg.not_isCommand_of_isReply {msg : Msg} (isReply : msg.isReply = true) :
    msg.isCommand = false := by
  by_contra command
  have type : msg.type = MsgType.actuate.toInt := by
    simpa [Msg.isCommand] using command
  simp [Msg.isReply, type] at isReply

theorem filter_isReply_of_commands {messages : List Tagged}
    (commands : ∀ tagged ∈ messages, ∃ uuid value, tagged.msg = Server.command uuid value) :
    messages.filter (fun tagged => tagged.msg.isReply) = [] := by
  rw [List.filter_eq_nil_iff]
  intro tagged member
  obtain ⟨uuid, value, same⟩ := commands tagged member
  simp [same]

theorem filterMap_reply_of_offered {emitted : List Emit}
    (offered : ∀ emit ∈ emitted, emit.Offered) : emitted.filterMap Emit.reply? = [] := by
  rw [List.filterMap_eq_nil_iff]
  intro emit member
  have command := offered emit member
  cases emit with
  | pub topic msg => rfl
  | send dest msg =>
      obtain ⟨uuid, value, rfl⟩ := command
      rfl

/-- The reply the server sent for a request it has handled. -/
structure Answers (client : ClientId) (served : List (Request × List Emit)) (request : Request)
    (reply : Tagged) : Prop where
  own : reply.origin = some (client, request.id)
  isReply : reply.msg.isReply = true
  sent : ∃ emitted, (request, emitted) ∈ served ∧
    emitted.filterMap Emit.reply? = [(client.uuid, reply.msg)]
  finishes : (request.call.finish reply.msg).Completes

theorem Answers.append {client : ClientId} {served : List (Request × List Emit)}
    {request : Request} {reply : Tagged} (answers : Answers client served request reply)
    (later : List (Request × List Emit)) : Answers client (served ++ later) request reply := by
  obtain ⟨emitted, member, replies⟩ := answers.sent
  exact ⟨answers.own, answers.isReply, ⟨emitted, List.mem_append_left _ member, replies⟩,
    answers.finishes⟩

namespace Link

structure Sound (client : ClientId) (link : Link) : Prop where
  alive : link.aborted = false
  numbered : link.served.map (fun entry => entry.1.id) ++ link.requests.map Request.id =
    List.range link.calls
  noExit : ∀ request ∈ link.requests, request.call ≠ .sendExit
  distinct : (link.waiting.map fun waiting => waiting.request.id).Pairwise (· < ·)
  bounded : ∀ waiting ∈ link.waiting, waiting.request.id < link.calls
  matched : Data.Matched (Answers client link.served) (link.waiting.map Waiting.request)
    (link.replies ++ link.inbound.filter fun tagged => tagged.msg.isReply)
    (link.requests.filter fun request => request.call.blocking)
  received : ∀ receipt ∈ link.receipts, Answers client link.served receipt.request receipt.reply

/-- The condition on a step: a thread enters its second critical section when its request is
the oldest of the client that still waits. -/
def InTurn {E : Type} (client : ClientId) (link : Link) : Action E → Prop
  | .recv id thread => id = client → link.waiting.head?.map Waiting.thread = some thread
  | _ => True

end Link

/-- The client does not call `nrm_client_send_exit`. -/
def Action.NoExit {E : Type} (client : ClientId) : Action E → Prop
  | .send id _ call => id = client → call ≠ .sendExit
  | _ => True

instance {E : Type} (client : ClientId) (action : Action E) : Decidable (action.NoExit client) :=
  match action with
  | .send id _ call => inferInstanceAs (Decidable (id = client → call ≠ .sendExit))
  | .forward _ | .accept _ | .handle _ _ | .timer _ | .deliver | .route _ | .recv _ _
  | .setActuateListener _ | .startActuateListener _ => isTrue trivial

namespace Link

variable {E : Type} {client : ClientId} {link next : Link}

theorem Sound.send (sound : link.Sound client) (thread : Nat) {request : Request}
    (numbered : request.id = link.calls) (noExit : request.call ≠ .sendExit) :
    (link.send thread request).Sound client where
  alive := sound.alive
  numbered := by
    simp only [Link.send, List.map_append, ← List.append_assoc, sound.numbered, List.map_cons,
      List.map_nil, numbered, List.range_succ]
  noExit := by
    simp only [Link.send, List.forall_mem_append]
    exact ⟨sound.noExit, by simpa using noExit⟩
  distinct := by
    have older : ∀ waiting ∈ link.waiting, waiting.request.id < request.id := by
      intro waiting member
      rw [numbered]
      exact sound.bounded waiting member
    simp only [Link.send]
    split
    · simpa [List.pairwise_append, sound.distinct] using older
    · exact sound.distinct
  bounded := by
    have bounded : ∀ waiting ∈ link.waiting, waiting.request.id < link.calls + 1 :=
      fun waiting member => Nat.lt_succ_of_lt (sound.bounded waiting member)
    simp only [Link.send]
    split
    · simpa [or_imp, forall_and, numbered] using bounded
    · exact bounded
  matched := by
    simp only [Link.send]
    split
    · rename_i blocking
      simpa [blocking] using sound.matched.ask request
    · rename_i blocking
      simpa [blocking] using sound.matched
  received := sound.received

theorem Sound.push (sound : link.Sound client) {messages : List Tagged}
    (commands : ∀ tagged ∈ messages, ∃ uuid value, tagged.msg = Server.command uuid value) :
    (link.push messages).Sound client where
  alive := sound.alive
  numbered := sound.numbered
  noExit := sound.noExit
  distinct := sound.distinct
  bounded := sound.bounded
  matched := by
    simpa [Link.push, filter_isReply_of_commands commands] using sound.matched
  received := sound.received

theorem Sound.serve_matched (sound : link.Sound client) {request : Request} {rest : List Request}
    {emitted : List Emit} (oldest : link.requests = request :: rest)
    (answered : request.call.Answered client.uuid emitted) :
    Data.Matched (Answers client (link.served ++ [(request, emitted)]))
      (link.waiting.map Waiting.request)
      (link.replies ++ (link.inbound ++
        arrivals client (Turn.posted ⟨some (client, request), emitted⟩)).filter fun tagged =>
          tagged.msg.isReply)
      (rest.filter fun request => request.call.blocking) := by
  have matched := sound.matched.imp fun _ _ answers => answers.append [(request, emitted)]
  rw [oldest] at matched
  rw [List.filter_append, ← List.append_assoc]
  cases answered with
  | reply before msg expected offered sent isReply finishes =>
      have blocking : request.call.blocking = true :=
        expected.resolve_left (sound.noExit request (by rw [oldest]; exact List.mem_cons_self))
      have arrived : (arrivals client (Turn.posted ⟨some (client, request), emitted⟩)).filter
          (fun tagged => tagged.msg.isReply) = [⟨some (client, request.id), msg⟩] := by
        rw [sent, arrivals_reply, List.filter_append,
          filter_isReply_of_commands (arrivals_offered offered)]
        simp [isReply, Turn.origin]
      rw [arrived]
      simp only [List.filter_cons, blocking, ↓reduceIte] at matched
      refine matched.answer ⟨rfl, isReply, ⟨emitted, by simp, ?_⟩, finishes⟩
      rw [sent, List.filterMap_append, filterMap_reply_of_offered offered]
      simp [Emit.reply?, Msg.not_isCommand_of_isReply isReply]
  | event time sensor scope value isEvent offered =>
      rw [filter_isReply_of_commands (arrivals_offered offered), List.append_nil]
      have quiet : request.call.blocking = false := by
        rw [isEvent]
        rfl
      simpa [quiet] using matched

theorem Sound.serve (sound : link.Sound client) {request : Request} {rest : List Request}
    {emitted : List Emit} (oldest : link.requests = request :: rest)
    (answered : request.call.Answered client.uuid emitted) :
    (link.serve client request rest emitted).Sound client where
  alive := sound.alive
  numbered := by
    have numbered := sound.numbered
    rw [oldest] at numbered
    simpa [Link.serve, Link.push] using numbered
  noExit := by
    intro other member
    exact sound.noExit other (by rw [oldest]; exact List.mem_cons_of_mem _ member)
  distinct := sound.distinct
  bounded := sound.bounded
  matched := sound.serve_matched oldest answered
  received := fun receipt member => (sound.received receipt member).append _

theorem Sound.recv (sound : link.Sound client) {waiting : Waiting} {reply : Tagged}
    {rest : List Tagged}
    (found : link.waiting.find? (fun other => other.thread = waiting.thread) = some waiting)
    (oldest : link.replies = reply :: rest)
    (inTurn : link.waiting.head?.map Waiting.thread = some waiting.thread) :
    (link.recv waiting reply rest).Sound client := by
  obtain ⟨others, queued⟩ : ∃ others, link.waiting = waiting :: others := by
    cases listed : link.waiting with
    | nil => simp [listed] at found
    | cons head tail =>
        have first : head.thread = waiting.thread := by simpa [listed] using inTurn
        simp only [listed, first, decide_true, List.find?_cons_of_pos, Option.some.injEq] at found
        exact ⟨tail, by rw [found]⟩
  have matched := sound.matched
  rw [oldest, queued, List.cons_append] at matched
  obtain ⟨request, requests, split, answers, remaining⟩ := matched.collect
  cases split
  obtain ⟨answer, finished⟩ := answers.finishes
  have shorter : link.waiting.eraseP (fun other => other.thread = waiting.thread) = others := by
    simp [queued]
  have distinct := sound.distinct
  rw [queued, List.map_cons, List.pairwise_cons] at distinct
  refine ⟨by simp only [Link.recv, finished], sound.numbered, sound.noExit, ?_, ?_, ?_, ?_⟩
  · simpa only [Link.recv, shorter] using distinct.2
  · intro other member
    simp only [Link.recv, shorter] at member
    exact sound.bounded other (by rw [queued]; exact List.mem_cons_of_mem _ member)
  · simpa only [Link.recv, shorter] using remaining
  · simp only [Link.recv, List.forall_mem_append]
    exact ⟨sound.received, by simpa using answers⟩

theorem Step.sound {action : Action E} (step : Step client link action next)
    (sound : link.Sound client) (noExit : action.NoExit client) (inTurn : link.InTurn client action) :
    next.Sound client := by
  cases step with
  | elsewhere => exact sound
  | send thread request numbered => exact sound.send thread numbered (noExit rfl)
  | serve frame env request rest emitted oldest answered => exact sound.serve oldest answered
  | push _ messages commands => exact sound.push commands
  | reply tagged rest oldest isReply =>
      have matched := sound.matched
      rw [oldest] at matched
      refine ⟨sound.alive, sound.numbered, sound.noExit, sound.distinct, sound.bounded, ?_,
        sound.received⟩
      simpa [isReply] using matched
  | command tagged rest oldest isCommand =>
      have matched := sound.matched
      rw [oldest] at matched
      refine ⟨sound.alive, sound.numbered, sound.noExit, sound.distinct, sound.bounded, ?_,
        sound.received⟩
      simpa [isCommand] using matched
  | recv waiting reply rest found oldest => exact sound.recv found oldest (inTurn rfl)
  | listen _ listening kept =>
      exact ⟨sound.alive, sound.numbered, sound.noExit, sound.distinct, sound.bounded, sound.matched,
        sound.received⟩

/-- The server handles a request once, so there is one reply to it in all. -/
theorem Sound.correct (sound : link.Sound client) {request : Request} {reply : Tagged}
    (answers : Answers client link.served request reply) :
    Receipt.Correct client link.served ⟨request, reply⟩ := by
  obtain ⟨emitted, member, replies⟩ := answers.sent
  have once : (link.served.map fun entry => entry.1.id).Nodup := by
    have range := List.nodup_range (n := link.calls)
    rw [← sound.numbered] at range
    exact (List.nodup_append.mp range).1
  obtain ⟨before, after, split⟩ := List.append_of_mem member
  rw [split, List.map_append, List.map_cons, List.nodup_append, List.nodup_cons] at once
  obtain ⟨_, ⟨notAfter, _⟩, notBefore⟩ := once
  refine ⟨answers.own, ?_, answers.finishes⟩
  have noneBefore : before.filter (fun entry => entry.1.id = request.id) = [] := by
    rw [List.filter_eq_nil_iff]
    intro entry listed
    simpa using notBefore entry.1.id (List.mem_map_of_mem listed) request.id List.mem_cons_self
  have noneAfter : after.filter (fun entry => entry.1.id = request.id) = [] := by
    rw [List.filter_eq_nil_iff]
    intro entry listed equal
    exact notAfter (List.mem_map.mpr ⟨entry, listed, by simpa using equal⟩)
  simp [repliesFor, split, noneBefore, noneAfter, replies]

/-- Out of turn, the reply at the head of the queue is not for the thread that
takes it. -/
theorem Sound.inTurn_of_own (sound : link.Sound client) {waiting : Waiting} {reply : Tagged}
    {rest : List Tagged} (listed : waiting ∈ link.waiting) (oldest : link.replies = reply :: rest)
    (own : reply.origin = some (client, waiting.request.id)) :
    link.waiting.head?.map Waiting.thread = some waiting.thread := by
  have matched := sound.matched
  rw [oldest, List.cons_append] at matched
  obtain ⟨request, requests, split, answers, _⟩ := matched.collect
  have distinct := sound.distinct
  cases queued : link.waiting with
  | nil => simp [queued] at listed
  | cons head tail =>
      simp only [queued, List.map_cons, List.cons.injEq] at split
      rw [queued, List.map_cons, List.pairwise_cons] at distinct
      have same : head.request.id = waiting.request.id := by
        have origins := answers.own.symm.trans own
        simpa [← split.1] using origins
      rw [queued] at listed
      rcases List.mem_cons.mp listed with first | later
      · simp [first]
      · have older := distinct.1 waiting.request.id (List.mem_map_of_mem later)
        omega

end Link

namespace System

variable {U E : Type} {callbacks : UserCallbacks U E}

def InTurn (client : ClientId) (system : System U) : Action E → Prop
  | .recv id thread =>
      id = client → (system.clients client).waiting.head?.map Waiting.thread = some thread
  | _ => True

instance (client : ClientId) (system : System U) (action : Action E) :
    Decidable (system.InTurn client action) :=
  match action with
  | .recv id thread => inferInstanceAs (Decidable (id = client →
      (system.clients client).waiting.head?.map Waiting.thread = some thread))
  | .send _ _ _ | .forward _ | .accept _ | .handle _ _ | .timer _ | .deliver | .route _
  | .setActuateListener _ | .startActuateListener _ => isTrue trivial

theorem start_sound (server : Server U) (client : ClientId) :
    ((start server).link client).Sound client where
  alive := rfl
  numbered := rfl
  noExit := by
    intro request member
    cases member
  distinct := .nil
  bounded := by
    intro waiting member
    cases member
  matched := .nil
  received := by
    intro receipt member
    cases member

theorem sound_of_run (disciplined : callbacks.Disciplined) {server : Server U} (client : ClientId)
    {actions : List (Action E)} {system : System U}
    (ran : Data.Run (fun before action after => (action.NoExit client ∧ before.InTurn client action) ∧
      before.step callbacks action = .ok after) (start server) actions system) :
    (system.link client).Sound client := by
  refine ran.invariant_of (motive := fun system => (system.link client).Sound client)
    (start_sound server client) ?_
  rintro before action after sound ⟨noExit, inTurn⟩ stepped
  exact (step_link disciplined client stepped).sound sound noExit (by cases action <;> exact inTurn)

/-- If a client never enters its second critical section out of turn, every call
of every thread gets the reply to its own request.  The first call that does gets
the reply to another one. -/
theorem run_correlates (disciplined : callbacks.Disciplined) (server : Server U) (client : ClientId)
    {actions : List (Action E)} {system : System U}
    (ran : Data.Run (fun before action after => (action.NoExit client ∧ before.InTurn client action) ∧
      before.step callbacks action = .ok after) (start server) actions system) :
    (∀ receipt ∈ (system.clients client).receipts,
      receipt.Correct client (system.served client)) ∧
    ∀ thread next, system.step callbacks (.recv client thread) = .ok next →
      ((∀ receipt ∈ (next.clients client).receipts, receipt.Correct client (next.served client)) ↔
        system.InTurn (E := E) client (.recv client thread)) := by
  have sound := sound_of_run disciplined client ran
  refine ⟨fun receipt member => sound.correct (sound.received receipt member), ?_⟩
  intro thread next stepped
  constructor
  · intro correct _
    have receiving := alive_eq_ok (show system.recv client thread = .ok next from stepped)
    split at receiving
    · rename_i waiting reply rest found queued
      cases receiving
      have thread : waiting.thread = thread := by simpa using List.find?_some found
      have own := (correct ⟨waiting.request, reply⟩ (by simp [setClient, Client.roleRecv])).own
      rw [← thread]
      exact sound.inTurn_of_own (List.mem_of_find?_eq_some found) queued own
    · cases receiving
  · intro inTurn receipt member
    have kept := (step_link disciplined client stepped).sound sound trivial inTurn
    exact kept.correct (kept.received receipt member)

def sampleClient : ClientId := ⟨[65], by decide⟩

def sampleSystem : System Daemon := start Nrmd.fresh

def sampleStep : System Daemon → Action TickEnv → Except Stop (System Daemon) :=
  step (Nrmd.callbacks ⟨fun _ => 1, fun _ => 0⟩)

def bothAnswered : List (Action TickEnv) :=
  [.send sampleClient 0 (.list .sensor), .send sampleClient 1 .sendTick, .forward sampleClient,
    .forward sampleClient, .accept sampleClient, .accept sampleClient,
    .handle [] Nrmd.noEnv, .handle [] Nrmd.noEnv, .deliver, .deliver,
    .route sampleClient, .route sampleClient]

theorem run_correlates_sample :
    ∃ system, Data.Run (fun before action after =>
        (action.NoExit sampleClient ∧ before.InTurn sampleClient action) ∧
          sampleStep before action = .ok after) sampleSystem
        (bothAnswered ++ [.recv sampleClient 0, .recv sampleClient 1]) system ∧
      (system.clients sampleClient).receipts.length = 2 ∧
      ∀ receipt ∈ (system.clients sampleClient).receipts,
        receipt.Correct sampleClient (system.served sampleClient) := by
  have accept : Data.accepted sampleStep (fun before action =>
      action.NoExit sampleClient ∧ before.InTurn sampleClient action) sampleSystem
      (bothAnswered ++ [.recv sampleClient 0, .recv sampleClient 1]) = true := by decide +kernel
  obtain ⟨system, ran, both⟩ := Data.Run.of_accepted sampleSystem _ accept
    (by decide +kernel : ∀ system ∈ (Data.run sampleStep sampleSystem
        (bothAnswered ++ [.recv sampleClient 0, .recv sampleClient 1])).toOption,
      (system.clients sampleClient).receipts.length = 2)
  exact ⟨system, ran, both,
    (run_correlates (Nrmd.callbacks_disciplined _) Nrmd.fresh sampleClient ran).1⟩

/-- Thread 1 is the first to receive, and gets the reply to the LIST of thread 0. -/
theorem second_thread_gets_first_reply :
    ∃ system, Data.Run (fun before action after => action.NoExit sampleClient ∧
        sampleStep before action = .ok after) sampleSystem
        (bothAnswered ++ [.recv sampleClient 1]) system ∧
      ∃ receipt ∈ (system.clients sampleClient).receipts,
        ¬ receipt.Correct sampleClient (system.served sampleClient) := by
  have accept : Data.accepted sampleStep (fun _ action => action.NoExit sampleClient) sampleSystem
      (bothAnswered ++ [.recv sampleClient 1]) = true := by decide +kernel
  obtain ⟨system, ran, exchanged⟩ := Data.Run.of_accepted sampleSystem _ accept
    (by decide +kernel : ∀ system ∈ (Data.run sampleStep sampleSystem
        (bothAnswered ++ [.recv sampleClient 1])).toOption,
      (system.clients sampleClient).receipts.map (fun receipt =>
        (receipt.request.id, receipt.reply.origin)) = [(1, some (sampleClient, 0))])
  obtain ⟨receipt, only, exchange⟩ := List.map_eq_singleton_iff.mp exchanged
  obtain ⟨id, origin⟩ := Prod.mk.inj exchange
  refine ⟨system, ran, receipt, by simp [only], fun correct => ?_⟩
  have own := correct.own
  rw [id, origin] at own
  simp at own

end System

end LibNrm
