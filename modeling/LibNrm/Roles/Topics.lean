import LibNrm.Data.References
import LibNrm.Data.Run
import LibNrm.Utils.Basic

namespace LibNrm

/-! A process hands topics to its brokers as bare pointers: `nrm_role_pub` to the
broker of a controller, `nrm_role_sub` to the broker of a client.  `S` is the
identity of an `nrm_string_t`, of which only the reference count matters here, and
`B` that of a broker.  The callers of the library are taken together: `held` is
how many references they have, which nothing in the code records.  One step is one
call of the library, or the receipt or the end of the handling of a message by a
broker, in any order.
-/

/-- The control messages that carry a topic. -/
inductive CtrlMsg (S : Type) where
  | pub (topic : S)
  | sub (topic : S)
deriving DecidableEq

def CtrlMsg.topic {S : Type} : CtrlMsg S → S
  | .pub topic => topic
  | .sub topic => topic

/-- Which of `nrm_role_controller_ops` and `nrm_role_client_ops` a role has. -/
inductive RoleKind where
  | controller
  | client
deriving DecidableEq

structure Process (S B : Type) where
  strings : Data.RefCounts S
  held : S → Nat
  /-- the message a broker has received and not finished with -/
  handling : B → Option (CtrlMsg S)
  pipe : B → List (CtrlMsg S)

namespace Process

variable {S B : Type}

def start : Process S B := ⟨.empty, fun _ => 0, fun _ => none, fun _ => []⟩

/-- What a broker has not finished with, in the order it will. -/
def inFlight (self : Process S B) (b : B) : List (CtrlMsg S) :=
  (self.handling b).toList ++ self.pipe b

/-- Reading the characters of a string. -/
def readString (self : Process S B) (s : S) : Exec Unit :=
  if self.strings.count s = 0 then .error .danglingPointer else .ok ()

variable [DecidableEq S] [DecidableEq B]

/-- `nrm_string_incref` -/
def stringIncref (self : Process S B) (s : S) : Exec (Process S B) :=
  match self.strings.incref s with
  | none => .error .danglingPointer
  | some strings => .ok { self with strings := strings }

/-- `nrm_string_decref` -/
def stringDecref (self : Process S B) (s : S) : Exec (Process S B) :=
  match self.strings.decref s with
  | none => .error .danglingPointer
  | some strings => .ok { self with strings := strings }

/-- `nrm_ctrlmsg_pub` and `nrm_ctrlmsg_sub` -/
def ctrlmsg (self : Process S B) (b : B) (msg : CtrlMsg S) : Process S B :=
  { self with pipe := Function.update self.pipe b (self.pipe b ++ [msg]) }

def roleControllerPub (self : Process S B) (b : B) (topic : S) : Exec (Process S B) := do
  let self ← self.stringIncref topic
  pure (self.ctrlmsg b (.pub topic))

def roleClientSub (self : Process S B) (b : B) (topic : S) : Process S B :=
  self.ctrlmsg b (.sub topic)

/-- `nrm_role_pub`: the operations of a client have no `pub`. -/
def rolePub (role : B → RoleKind) (self : Process S B) (b : B) (topic : S) : Exec (Process S B) :=
  match role b with
  | .controller => self.roleControllerPub b topic
  | .client => .ok self

/-- `nrm_role_sub`: the operations of a controller have no `sub`. -/
def roleSub (role : B → RoleKind) (self : Process S B) (b : B) (topic : S) : Process S B :=
  match role b with
  | .controller => self
  | .client => self.roleClientSub b topic

/-- `nrm_controller_broker_pipe_handler`, once the message is received. -/
def controllerBrokerPipeHandler (self : Process S B) : CtrlMsg S → Exec (Process S B)
  | .pub topic => do
      self.readString topic
      self.stringDecref topic
  | .sub _ => .ok self

/-- `nrm_client_broker_pipe_handler`, once the message is received. -/
def clientBrokerPipeHandler (self : Process S B) : CtrlMsg S → Exec (Process S B)
  | .pub _ => .ok self
  | .sub topic => do
      self.readString topic
      pure self

/-- The handler the broker of a role runs. -/
def brokerPipeHandler (role : B → RoleKind) (self : Process S B) (b : B) (msg : CtrlMsg S) :
    Exec (Process S B) :=
  match role b with
  | .controller => self.controllerBrokerPipeHandler msg
  | .client => self.clientBrokerPipeHandler msg

inductive Action (S B : Type) where
  /-- `nrm_string_fromchar` by a caller -/
  | create (s : S)
  /-- `nrm_string_incref` by a caller -/
  | incref (s : S)
  /-- `nrm_string_decref` by a caller -/
  | decref (s : S)
  /-- `nrm_server_publish` -/
  | publish (b : B) (topic : S)
  /-- `nrm_client_start_event_listener` -/
  | subscribe (b : B) (topic : S)
  /-- `nrm_ctrlmsg__recv` by a broker -/
  | receive (b : B)
  /-- the rest of the pipe handler of a broker -/
  | finish (b : B)
deriving DecidableEq

/-- A new string has a new identity, and callers only pass strings they have a reference to. -/
def Allowed (self : Process S B) : Action S B → Prop
  | .create s => self.strings.counts s = none
  | .incref s => 0 < self.held s
  | .decref s => 0 < self.held s
  | .publish _ topic => 0 < self.held topic
  | .subscribe _ topic => 0 < self.held topic
  | .receive b => self.handling b = none ∧ self.pipe b ≠ []
  | .finish b => self.handling b ≠ none

instance (self : Process S B) : (action : Action S B) → Decidable (self.Allowed action)
  | .create s => inferInstanceAs (Decidable (self.strings.counts s = none))
  | .incref s => inferInstanceAs (Decidable (0 < self.held s))
  | .decref s => inferInstanceAs (Decidable (0 < self.held s))
  | .publish _ topic => inferInstanceAs (Decidable (0 < self.held topic))
  | .subscribe _ topic => inferInstanceAs (Decidable (0 < self.held topic))
  | .receive b => inferInstanceAs (Decidable (self.handling b = none ∧ self.pipe b ≠ []))
  | .finish b => inferInstanceAs (Decidable (self.handling b ≠ none))

def step (role : B → RoleKind) (self : Process S B) : Action S B → Exec (Process S B)
  | .create s =>
      .ok { self with strings := self.strings.create s, held := Function.update self.held s 1 }
  | .incref s => do
      let self ← self.stringIncref s
      pure { self with held := Function.update self.held s (self.held s + 1) }
  | .decref s => do
      let self ← self.stringDecref s
      pure { self with held := Function.update self.held s (self.held s - 1) }
  | .publish b topic => self.rolePub role b topic
  | .subscribe b topic => .ok (self.roleSub role b topic)
  | .receive b =>
      match self.pipe b with
      | [] => .ok self
      | msg :: rest =>
          .ok { self with
            handling := Function.update self.handling b (some msg)
            pipe := Function.update self.pipe b rest }
  | .finish b =>
      match self.handling b with
      | none => .ok self
      | some msg => do
          let self ← self.brokerPipeHandler role b msg
          pure { self with handling := Function.update self.handling b none }

omit [DecidableEq S] in
theorem inFlight_ctrlmsg (self : Process S B) (b : B) (msg : CtrlMsg S) :
    (self.ctrlmsg b msg).inFlight = Function.update self.inFlight b (self.inFlight b ++ [msg]) := by
  funext c
  by_cases same : c = b
  · subst same
    simp [inFlight, ctrlmsg]
  · simp [inFlight, ctrlmsg, same]

/-- The effects of a step on the counts, on the references of the callers and on the messages
in flight. -/
inductive Effect (role : B → RoleKind) (self : Process S B) (action : Action S B)
    (after : Process S B) : Prop where
  | create (s : S) (turn : action = .create s) (fresh : self.strings.counts s = none)
      (strings : after.strings = self.strings.create s)
      (held : after.held = Function.update self.held s 1) (flight : after.inFlight = self.inFlight)
  | incref (s : S) (turn : action = .incref s) (strings : self.strings.incref s = some after.strings)
      (held : after.held = Function.update self.held s (self.held s + 1))
      (flight : after.inFlight = self.inFlight)
  | decref (s : S) (turn : action = .decref s) (owned : 0 < self.held s)
      (strings : self.strings.decref s = some after.strings)
      (held : after.held = Function.update self.held s (self.held s - 1))
      (flight : after.inFlight = self.inFlight)
  | publish (b : B) (topic : S) (turn : action = .publish b topic) (kind : role b = .controller)
      (strings : self.strings.incref topic = some after.strings) (held : after.held = self.held)
      (flight : after.inFlight = Function.update self.inFlight b (self.inFlight b ++ [.pub topic]))
  | subscribe (b : B) (topic : S) (turn : action = .subscribe b topic) (kind : role b = .client)
      (owned : 0 < self.held topic) (strings : after.strings = self.strings)
      (held : after.held = self.held)
      (flight : after.inFlight = Function.update self.inFlight b (self.inFlight b ++ [.sub topic]))
  | idle (still : ∀ b, action ≠ .finish b) (still' : ∀ s, action ≠ .decref s)
      (strings : after.strings = self.strings) (held : after.held = self.held)
      (flight : after.inFlight = self.inFlight)
  | published (b : B) (topic : S) (rest : List (CtrlMsg S)) (turn : action = .finish b)
      (current : self.handling b = some (.pub topic)) (first : self.inFlight b = .pub topic :: rest)
      (strings : self.strings.decref topic = some after.strings) (held : after.held = self.held)
      (flight : after.inFlight = Function.update self.inFlight b rest)
  | subscribed (b : B) (topic : S) (rest : List (CtrlMsg S)) (turn : action = .finish b)
      (current : self.handling b = some (.sub topic)) (first : self.inFlight b = .sub topic :: rest)
      (strings : after.strings = self.strings) (held : after.held = self.held)
      (flight : after.inFlight = Function.update self.inFlight b rest)

/-- Only a controller is sent PUB messages, only a client SUB messages. -/
def Routed (role : B → RoleKind) (self : Process S B) : Prop :=
  ∀ b msg, msg ∈ self.inFlight b →
    role b = .controller ∧ msg = .pub msg.topic ∨ role b = .client ∧ msg = .sub msg.topic

omit [DecidableEq B] in
theorem stringIncref_eq_ok {self after : Process S B} {s : S}
    (taken : self.stringIncref s = .ok after) :
    ∃ strings, self.strings.incref s = some strings ∧ after = { self with strings := strings } := by
  unfold stringIncref at taken
  split at taken
  · cases taken
  · rename_i strings counted
    cases taken
    exact ⟨strings, counted, rfl⟩

omit [DecidableEq B] in
theorem stringDecref_eq_ok {self after : Process S B} {s : S}
    (given : self.stringDecref s = .ok after) :
    ∃ strings, self.strings.decref s = some strings ∧ after = { self with strings := strings } := by
  unfold stringDecref at given
  split at given
  · cases given
  · rename_i strings counted
    cases given
    exact ⟨strings, counted, rfl⟩

omit [DecidableEq S] in
theorem inFlight_finish {self : Process S B} {b : B} {msg : CtrlMsg S}
    (current : self.handling b = some msg) :
    self.inFlight b = msg :: self.pipe b ∧ ∀ strings,
      inFlight ⟨strings, self.held, Function.update self.handling b none, self.pipe⟩ =
        Function.update self.inFlight b (self.pipe b) := by
  constructor
  · simp [inFlight, current]
  · intro strings
    funext c
    by_cases same : c = b
    · subst same
      simp [inFlight]
    · simp [inFlight, same]

theorem step_effect {role : B → RoleKind} {self after : Process S B} {action : Action S B}
    (routed : self.Routed role) (allowed : self.Allowed action)
    (stepped : self.step role action = .ok after) : Effect role self action after := by
  cases action with
  | create s =>
      cases stepped
      exact .create s rfl allowed rfl rfl rfl
  | incref s =>
      obtain ⟨middle, taken, done⟩ := Exec.bind_eq_ok.mp stepped
      obtain ⟨strings, counted, rfl⟩ := stringIncref_eq_ok taken
      cases done
      exact .incref s rfl counted rfl rfl
  | decref s =>
      obtain ⟨middle, given, done⟩ := Exec.bind_eq_ok.mp stepped
      obtain ⟨strings, counted, rfl⟩ := stringDecref_eq_ok given
      cases done
      exact .decref s rfl allowed counted rfl rfl
  | publish b topic =>
      simp only [step, rolePub] at stepped
      split at stepped
      · rename_i kind
        obtain ⟨middle, taken, done⟩ := Exec.bind_eq_ok.mp stepped
        obtain ⟨strings, counted, rfl⟩ := stringIncref_eq_ok taken
        cases done
        exact .publish b topic rfl kind counted rfl (inFlight_ctrlmsg _ b _)
      · cases stepped
        exact .idle (by simp) (by simp) rfl rfl rfl
  | subscribe b topic =>
      simp only [step, roleSub] at stepped
      split at stepped
      · cases stepped
        exact .idle (by simp) (by simp) rfl rfl rfl
      · rename_i kind
        cases stepped
        exact .subscribe b topic rfl kind allowed rfl rfl (inFlight_ctrlmsg self b _)
  | receive b =>
      simp only [step] at stepped
      split at stepped
      · cases stepped
        exact .idle (by simp) (by simp) rfl rfl rfl
      · rename_i msg rest waiting
        cases stepped
        refine .idle (by simp) (by simp) rfl rfl ?_
        funext c
        by_cases same : c = b
        · subst same
          simp [inFlight, allowed.1, waiting]
        · simp [inFlight, same]
  | finish b =>
      simp only [step] at stepped
      split at stepped
      · rename_i current
        exact absurd current allowed
      · rename_i msg current
        obtain ⟨first, flight⟩ := inFlight_finish current
        obtain ⟨middle, handled, done⟩ := Exec.bind_eq_ok.mp stepped
        have member : msg ∈ self.inFlight b := by simp [first]
        rcases routed b msg member with ⟨kind, isPub⟩ | ⟨kind, isSub⟩
        · rw [brokerPipeHandler, kind, isPub] at handled
          obtain ⟨_, _, given⟩ := Exec.bind_eq_ok.mp handled
          obtain ⟨strings, counted, rfl⟩ := stringDecref_eq_ok given
          cases done
          exact .published b msg.topic _ rfl (isPub ▸ current) (isPub ▸ first) counted rfl (flight _)
        · rw [brokerPipeHandler, kind, isSub] at handled
          obtain ⟨_, _, same⟩ := Exec.bind_eq_ok.mp handled
          cases same
          cases done
          exact .subscribed b msg.topic _ rfl (isSub ▸ current) (isSub ▸ first) rfl rfl (flight _)

theorem Effect.routed {role : B → RoleKind} {self after : Process S B} {action : Action S B}
    (effect : Effect role self action after) (routed : self.Routed role) : after.Routed role := by
  have pushed {b : B} {msg : CtrlMsg S}
      (flight : after.inFlight = Function.update self.inFlight b (self.inFlight b ++ [msg]))
      (new : role b = .controller ∧ msg = .pub msg.topic ∨ role b = .client ∧ msg = .sub msg.topic) :
      after.Routed role := by
    intro c other member
    rw [flight] at member
    by_cases same : c = b
    · subst same
      simp only [Function.update_self, List.mem_append, List.mem_singleton] at member
      rcases member with old | rfl
      · exact routed c other old
      · exact new
    · rw [Function.update_of_ne same] at member
      exact routed c other member
  have popped {b : B} {msg : CtrlMsg S} {rest : List (CtrlMsg S)}
      (first : self.inFlight b = msg :: rest)
      (flight : after.inFlight = Function.update self.inFlight b rest) : after.Routed role := by
    intro c other member
    rw [flight] at member
    by_cases same : c = b
    · subst same
      rw [Function.update_self] at member
      exact routed c other (first ▸ List.mem_cons_of_mem msg member)
    · rw [Function.update_of_ne same] at member
      exact routed c other member
  have still (flight : after.inFlight = self.inFlight) : after.Routed role := by
    intro c other member
    exact routed c other (flight ▸ member)
  cases effect with
  | create s turn fresh strings held flight => exact still flight
  | incref s turn strings held flight => exact still flight
  | decref s turn owned strings held flight => exact still flight
  | publish b topic turn kind strings held flight => exact pushed flight (.inl ⟨kind, rfl⟩)
  | subscribe b topic turn kind owned strings held flight => exact pushed flight (.inr ⟨kind, rfl⟩)
  | idle still₁ still₂ strings held flight => exact still flight
  | published b topic rest turn current first strings held flight => exact popped first flight
  | subscribed b topic rest turn current first strings held flight => exact popped first flight

/-- Some broker has not finished with a SUB message for the topic. -/
def Subscribing (self : Process S B) (topic : S) : Prop := ∃ b, .sub topic ∈ self.inFlight b

variable [Fintype B]

def published (self : Process S B) (topic : S) : Nat := Data.inQueues self.inFlight (.pub topic)

/-- Every reference is one of a caller or one of a PUB message. -/
structure Accounted (role : B → RoleKind) (process : Process S B) : Prop where
  counted : ∀ s, process.strings.count s = process.held s + process.published s
  routed : process.Routed role

/-- A topic in flight has a reference, and one that is not in flight has those of the
callers. -/
structure Alive (process : Process S B) : Prop where
  referenced : ∀ b msg, msg ∈ process.inFlight b → 1 ≤ process.strings.count msg.topic
  settled : ∀ s, (∀ b msg, msg ∈ process.inFlight b → msg.topic ≠ s) →
    process.strings.count s = process.held s

omit [DecidableEq B] in
/-- PUB messages keep their topics alive; SUB messages have to be looked at. -/
theorem Accounted.alive_iff {role : B → RoleKind} {self : Process S B}
    (accounted : self.Accounted role) :
    self.Alive ↔ ∀ topic, self.Subscribing topic → 1 ≤ self.strings.count topic := by
  constructor
  · rintro alive topic ⟨b, member⟩
    exact alive.referenced b _ member
  · intro subscribed
    refine ⟨?_, ?_⟩
    · intro b msg member
      rcases accounted.routed b msg member with ⟨_, isPub⟩ | ⟨_, isSub⟩
      · have positive : 0 < self.published msg.topic :=
          Data.inQueues_pos_iff.mpr ⟨b, isPub ▸ member⟩
        have counted := accounted.counted msg.topic
        omega
      · exact subscribed msg.topic ⟨b, isSub ▸ member⟩
    · intro s absent
      have none : ¬ 0 < self.published s := by
        intro positive
        obtain ⟨b, member⟩ := Data.inQueues_pos_iff.mp positive
        exact absent b _ member rfl
      have counted := accounted.counted s
      omega

theorem Effect.accounted {role : B → RoleKind} {self after : Process S B} {action : Action S B}
    (effect : Effect role self action after) (accounted : self.Accounted role) :
    after.Accounted role := by
  refine ⟨?_, effect.routed accounted.routed⟩
  intro s
  have before := accounted.counted s
  unfold Process.published at before ⊢
  cases effect with
  | create new turn fresh strings held flight =>
      have absent : self.strings.count new = 0 := by simp [Data.RefCounts.count, fresh]
      rw [strings, held, flight, Data.RefCounts.count_create, Function.update_apply]
      split
      · rename_i same
        subst same
        omega
      · exact before
  | incref other turn strings held flight =>
      have counted := Data.RefCounts.count_incref strings s
      rw [held, flight, counted, Function.update_apply]
      split
      · rename_i same
        subst same
        omega
      · omega
  | decref other turn owned strings held flight =>
      have counted := Data.RefCounts.count_decref strings s
      rw [held, flight, Function.update_apply]
      split
      · rename_i same
        subst same
        simp only [↓reduceIte] at counted
        omega
      · rename_i different
        simp only [different, ↓reduceIte] at counted
        omega
  | publish b topic turn kind strings held flight =>
      have counted := Data.RefCounts.count_incref strings s
      rw [held, flight, Data.inQueues_push, counted, before]
      simp only [CtrlMsg.pub.injEq, eq_comm, Nat.add_assoc]
  | subscribe b topic turn kind owned strings held flight =>
      rw [strings, held, flight, Data.inQueues_push]
      simpa using before
  | idle still still' strings held flight =>
      rw [strings, held, flight]
      exact before
  | published b topic rest turn current first strings held flight =>
      have counted := Data.RefCounts.count_decref strings s
      have popped := Data.inQueues_pop first (.pub s)
      rw [held, flight]
      simp only [CtrlMsg.pub.injEq, @eq_comm S topic s] at popped
      omega
  | subscribed b topic rest turn current first strings held flight =>
      have popped := Data.inQueues_pop first (.pub s)
      rw [strings, held, flight]
      simp only [reduceCtorEq, ↓reduceIte, Nat.add_zero] at popped
      omega

/-- The step gives back a reference to the topic: one of the callers, or the one of a PUB
message. -/
def Releases (self : Process S B) : Action S B → S → Prop
  | .decref s, topic => s = topic
  | .finish b, topic => self.handling b = some (.pub topic)
  | _, _ => False

/-- Nothing gives back the last reference to a topic while a SUB message for it is in
flight. -/
def Careful (self : Process S B) (action : Action S B) : Prop :=
  ∀ topic, self.Releases action topic → self.Subscribing topic →
    2 ≤ self.held topic + self.published topic

omit [DecidableEq B] in
theorem subscribing_iff {self : Process S B} {topic : S} :
    self.Subscribing topic ↔ 0 < Data.inQueues self.inFlight (.sub topic) :=
  Data.inQueues_pos_iff.symm

omit [DecidableEq B] in
theorem careful_of_silent {self : Process S B} {action : Action S B}
    (silent : ∀ topic, ¬ self.Releases action topic) : self.Careful action := by
  intro topic release
  exact absurd release (silent topic)

omit [DecidableEq B] in
/-- A step that gives back one reference to a topic leaves enough of them exactly
when there was another one. -/
theorem Accounted.careful_iff {role : B → RoleKind} {self after : Process S B} {action : Action S B}
    (accounted : self.Accounted role) (alive : self.Alive) {given : S}
    (release : ∀ topic, self.Releases action topic ↔ topic = given)
    (counts : ∀ topic, self.strings.count topic =
      after.strings.count topic + if topic = given then 1 else 0)
    (same : ∀ topic, after.Subscribing topic ↔ self.Subscribing topic) :
    (∀ topic, after.Subscribing topic → 1 ≤ after.strings.count topic) ↔ self.Careful action := by
  have live := accounted.alive_iff.mp alive
  constructor
  · intro safe topic releases subscribing
    have named := (release topic).mp releases
    have rest := safe topic ((same topic).mpr subscribing)
    have counted := accounted.counted topic
    have less := counts topic
    simp only [named, ↓reduceIte] at less rest counted ⊢
    omega
  · intro careful topic subscribing
    have before := live topic ((same topic).mp subscribing)
    have less := counts topic
    by_cases named : topic = given
    · have enough := careful topic ((release topic).mpr named) ((same topic).mp subscribing)
      have counted := accounted.counted topic
      simp only [named, ↓reduceIte] at less enough counted ⊢
      omega
    · simp only [named, ↓reduceIte] at less
      omega

theorem Effect.alive_iff {role : B → RoleKind} {self after : Process S B} {action : Action S B}
    (effect : Effect role self action after) (accounted : self.Accounted role)
    (alive : self.Alive) : after.Alive ↔ self.Careful action := by
  have live := accounted.alive_iff.mp alive
  rw [(effect.accounted accounted).alive_iff]
  cases effect with
  | create s turn fresh strings held flight =>
      refine iff_of_true ?_ (careful_of_silent (by simp [turn, Releases]))
      intro topic subscribing
      rw [strings, Data.RefCounts.count_create]
      split
      · exact le_rfl
      · exact live topic (by simpa only [Subscribing, flight] using subscribing)
  | incref s turn strings held flight =>
      refine iff_of_true ?_ (careful_of_silent (by simp [turn, Releases]))
      intro topic subscribing
      have counted := Data.RefCounts.count_incref strings topic
      have before := live topic (by simpa only [Subscribing, flight] using subscribing)
      omega
  | decref s turn owned strings held flight =>
      refine accounted.careful_iff alive ?_ (Data.RefCounts.count_decref strings) ?_
      · intro topic
        rw [turn]
        exact eq_comm
      · intro topic
        simp only [Subscribing, flight]
  | publish b topic turn kind strings held flight =>
      refine iff_of_true ?_ (careful_of_silent (by simp [turn, Releases]))
      intro other subscribing
      have counted := Data.RefCounts.count_incref strings other
      rw [subscribing_iff, flight, Data.inQueues_push] at subscribing
      have before := live other (subscribing_iff.mpr (by simpa using subscribing))
      omega
  | subscribe b topic turn kind owned strings held flight =>
      refine iff_of_true ?_ (careful_of_silent (by simp [turn, Releases]))
      intro other subscribing
      rw [subscribing_iff, flight, Data.inQueues_push] at subscribing
      rw [strings]
      by_cases new : topic = other
      · have counted := accounted.counted topic
        rw [← new]
        omega
      · simp only [CtrlMsg.sub.injEq, new, ↓reduceIte, Nat.add_zero] at subscribing
        exact live other (subscribing_iff.mpr subscribing)
  | idle still still' strings held flight =>
      refine iff_of_true ?_ (careful_of_silent ?_)
      · intro topic subscribing
        rw [strings]
        exact live topic (by simpa only [Subscribing, flight] using subscribing)
      · intro topic release
        cases action with
        | decref s => exact still' s rfl
        | finish b => exact still b rfl
        | _ => exact release
  | published b topic rest turn current first strings held flight =>
      refine accounted.careful_iff alive ?_ (Data.RefCounts.count_decref strings) ?_
      · intro other
        simp only [turn, Releases, current, Option.some.injEq, CtrlMsg.pub.injEq]
        exact eq_comm
      · intro other
        have popped := Data.inQueues_pop first (.sub other)
        simp only [reduceCtorEq, ↓reduceIte, Nat.add_zero] at popped
        rw [subscribing_iff, subscribing_iff, flight, popped]
  | subscribed b topic rest turn current first strings held flight =>
      refine iff_of_true ?_ (careful_of_silent (by simp [turn, Releases, current]))
      intro other subscribing
      have popped := Data.inQueues_pop first (.sub other)
      rw [subscribing_iff, flight] at subscribing
      rw [strings]
      exact live other (subscribing_iff.mpr (by omega))

theorem step_completes {role : B → RoleKind} {self : Process S B} {action : Action S B}
    (accounted : self.Accounted role) (alive : self.Alive) (allowed : self.Allowed action) :
    ∃ after, self.step role action = .ok after := by
  have owned {s : S} (holds : 0 < self.held s) : 0 < self.strings.count s := by
    have counted := accounted.counted s
    omega
  cases action with
  | create s => exact ⟨_, rfl⟩
  | incref s =>
      obtain ⟨strings, counted⟩ := Data.RefCounts.incref_completes (owned allowed)
      exact ⟨_, by simp only [step, stringIncref, counted, Exec.ok_bind, Exec.pure_eq_ok]; rfl⟩
  | decref s =>
      obtain ⟨strings, counted⟩ := Data.RefCounts.decref_completes (owned allowed)
      exact ⟨_, by simp only [step, stringDecref, counted, Exec.ok_bind, Exec.pure_eq_ok]; rfl⟩
  | publish b topic =>
      obtain ⟨strings, counted⟩ := Data.RefCounts.incref_completes (owned allowed)
      simp only [step, rolePub]
      split
      · exact ⟨_, by simp only [roleControllerPub, stringIncref, counted, Exec.ok_bind,
          Exec.pure_eq_ok]; rfl⟩
      · exact ⟨_, rfl⟩
  | subscribe b topic => exact ⟨_, rfl⟩
  | receive b =>
      simp only [step]
      split
      · exact ⟨_, rfl⟩
      · exact ⟨_, rfl⟩
  | finish b =>
      simp only [step]
      cases current : self.handling b with
      | none => exact ⟨_, rfl⟩
      | some msg =>
          have member : msg ∈ self.inFlight b := by simp [(inFlight_finish current).1]
          have live := alive.referenced b msg member
          have readable : self.strings.count msg.topic ≠ 0 := by omega
          obtain ⟨strings, counted⟩ := Data.RefCounts.decref_completes live
          have handled : ∃ middle, self.brokerPipeHandler role b msg = .ok middle := by
            rcases accounted.routed b msg member with ⟨kind, isPub⟩ | ⟨kind, isSub⟩
            · rw [brokerPipeHandler, kind, isPub]
              exact ⟨_, by simp only [controllerBrokerPipeHandler, readString, readable, ↓reduceIte,
                stringDecref, counted, Exec.ok_bind]; rfl⟩
            · rw [brokerPipeHandler, kind, isSub]
              exact ⟨_, by simp only [clientBrokerPipeHandler, readString, readable, ↓reduceIte,
                Exec.ok_bind]; rfl⟩
          obtain ⟨middle, handled⟩ := handled
          exact ⟨_, by simp only [handled, Exec.ok_bind]; rfl⟩

def CarefulStep (role : B → RoleKind) (self : Process S B) (action : Action S B)
    (after : Process S B) : Prop :=
  self.Careful action ∧ self.Allowed action ∧ self.step role action = .ok after

omit [DecidableEq B] in
theorem start_accounted (role : B → RoleKind) : (start : Process S B).Accounted role := by
  refine ⟨?_, ?_⟩
  · intro s
    simp [start, published, Data.inQueues, inFlight]
  · intro b msg member
    simp [start, inFlight] at member

omit [DecidableEq S] [DecidableEq B] [Fintype B] in
theorem start_alive : (start : Process S B).Alive := by
  refine ⟨?_, ?_⟩
  · intro b msg member
    simp [start, inFlight] at member
  · intro s _
    rfl

/-- As long as nothing gives back the last reference to a topic while a SUB message
for it is in flight, every topic in flight has a reference and the others have
those of the callers, and no call and no handler faults; the first step that does
give it back leaves a SUB message with a topic that is gone. -/
theorem run_alive (role : B → RoleKind) {self : Process S B} {actions : List (Action S B)}
    (ran : Data.Run (CarefulStep role) start actions self) :
    self.Alive ∧ ∀ action, self.Allowed action →
      ∃ after, self.step role action = .ok after ∧ (after.Alive ↔ self.Careful action) := by
  have invariant : self.Accounted role ∧ self.Alive := by
    refine ran.invariant (motive := fun self => self.Accounted role ∧ self.Alive)
      ⟨start_accounted role, start_alive⟩ ?_
    rintro before action after ⟨accounted, alive⟩ ⟨careful, allowed, stepped⟩
    have effect := step_effect accounted.routed allowed stepped
    exact ⟨effect.accounted accounted, (effect.alive_iff accounted alive).mpr careful⟩
  obtain ⟨accounted, alive⟩ := invariant
  refine ⟨alive, ?_⟩
  intro action allowed
  obtain ⟨after, stepped⟩ := step_completes accounted alive allowed
  have effect := step_effect accounted.routed allowed stepped
  exact ⟨after, stepped, effect.alive_iff accounted alive⟩

/-- A client subscribes and drops its reference once its broker is done. -/
theorem run_alive_sample :
    ∃ self : Process Nat Unit, Data.Run (CarefulStep fun _ => .client) start
        [.create 0, .subscribe () 0, .receive (), .finish (), .decref 0] self ∧ self.Alive := by
  obtain ⟨self, ran⟩ : ∃ self : Process Nat Unit, Data.Run (CarefulStep fun _ => .client) start
      [.create 0, .subscribe () 0, .receive (), .finish (), .decref 0] self := by
    refine ⟨_, .cons ⟨fun _ => nofun, rfl, rfl⟩ (.cons ⟨fun _ => nofun, by decide, rfl⟩
      (.cons ⟨fun _ => nofun, by decide, rfl⟩ (.cons ⟨fun _ => nofun, by decide, rfl⟩
        (.cons ⟨?_, by decide, rfl⟩ (.nil _)))))⟩
    rintro topic _ ⟨b, member⟩
    cases member
  exact ⟨self, ran, (run_alive (fun _ => .client) ran).1⟩

/-- A client subscribes and drops its reference at once: its broker reads a string
that is gone. -/
theorem subscribed_topic_freed :
    ∃ self received : Process Nat Unit,
      Data.Run (fun before action after =>
          before.Allowed action ∧ before.step (fun _ => .client) action = .ok after) start
        [.create 0, .subscribe () 0, .decref 0] self ∧
      ¬ self.Alive ∧
      self.step (fun _ => .client) (.receive ()) = .ok received ∧
      received.step (fun _ => .client) (.finish ()) = .error .danglingPointer := by
  refine ⟨_, _, .cons ⟨rfl, rfl⟩ (.cons ⟨by decide, rfl⟩ (.cons ⟨by decide, rfl⟩ (.nil _))), ?_, rfl,
    rfl⟩
  intro alive
  have referenced := alive.referenced () (.sub 0) (by decide)
  revert referenced
  decide

end Process

end LibNrm
