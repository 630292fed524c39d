import LibNrm.Server

namespace LibNrm

/-- The arguments an event callback is called with. -/
structure EventCall where
  uuid : NrmString
  scope : Option Scope
  time : NrmTime
  value : ℚ
deriving DecidableEq, Repr

/-- One call for each event of the series, with its sensor and its scope. -/
def MsgTimeserie.calls (ts : MsgTimeserie) : List EventCall :=
  ts.events.map fun e =>
    ⟨stringFromchar ts.sensorUuid, scopeCreateFrommsg ts.scope, .fromns e.time, e.value⟩

namespace Server

variable {U E : Type}

def callEvents (event : Server U → NrmString → Option Scope → NrmTime → ℚ → Exec (U × List Emit)) :
    Server U → List EventCall → Exec (Server U × List Emit)
  | self, [] => .ok (self, [])
  | self, call :: rest => do
      let (user, first) ← event self call.uuid call.scope call.time call.value
      let (self, later) ← callEvents event { self with user := user } rest
      pure (self, first ++ later)

def callEvent (callbacks : UserCallbacks U E) (self : Server U) (uuid : NrmString)
    (scope : Option Scope) (time : NrmTime) (value : ℚ) : Exec (U × List Emit) := do
  let event ← deref callbacks.event
  event self uuid scope time value

variable {callbacks : UserCallbacks U E}
  {event : Server U → NrmString → Option Scope → NrmTime → ℚ → Exec (U × List Emit)}

theorem callEvent_eq (set : callbacks.event = some event) : callEvent callbacks = event := by
  funext self uuid scope time value
  simp only [callEvent, set, deref_some, Exec.ok_bind]

theorem callEvents_append (self : Server U) (first second : List EventCall) :
    callEvents event self (first ++ second) = (do
      let (middle, emitted) ← callEvents event self first
      let (last, later) ← callEvents event middle second
      pure (last, emitted ++ later)) := by
  induction first generalizing self with
  | nil =>
      simp only [List.nil_append, callEvents, Exec.ok_bind]
      cases callEvents event self second <;> rfl
  | cons call rest ih =>
      simp only [List.cons_append, callEvents]
      cases event self call.uuid call.scope call.time call.value with
      | error fault => rfl
      | ok called =>
          obtain ⟨user, emitted⟩ := called
          simp only [Exec.ok_bind, ih]
          cases callEvents event { self with user := user } rest with
          | error fault => rfl
          | ok result =>
              obtain ⟨middle, later⟩ := result
              simp only [Exec.ok_bind, Exec.pure_eq_ok]
              cases callEvents event middle second with
              | error fault => rfl
              | ok ended => simp only [Exec.ok_bind, List.append_assoc]

theorem eventsLoop_eq (uuid : NrmString) (scope : Option Scope) (self : Server U)
    (events : List MsgEvent) :
    eventsLoop callbacks uuid scope self events =
      callEvents (callEvent callbacks) self
        (events.map fun e => ⟨uuid, scope, .fromns e.time, e.value⟩) := by
  induction events generalizing self with
  | nil => rfl
  | cons e rest ih =>
      simp only [eventsLoop, List.map_cons, callEvents, callEvent, ih]
      cases callbacks.event <;> rfl

theorem seriesLoop_eq (self : Server U) (series : List MsgTimeserie) :
    seriesLoop callbacks self series =
      callEvents (callEvent callbacks) self (series.flatMap MsgTimeserie.calls) := by
  induction series generalizing self with
  | nil => rfl
  | cons ts rest ih =>
      rw [List.flatMap_cons, callEvents_append]
      simp only [seriesLoop, eventsLoop_eq, ih]
      rfl

/-- The server calls its event callback once for each event of the message, in
the order of the series and, within a series, of its events. -/
theorem eventsCallback_eq (set : callbacks.event = some event) (self : Server U)
    (series : List MsgTimeserie) :
    self.eventsCallback callbacks (some series) = (do
      let (self, emitted) ← callEvents event self (series.flatMap MsgTimeserie.calls)
      pure ⟨0, self, emitted⟩) := by
  simp only [eventsCallback, deref_some, Exec.ok_bind, seriesLoop_eq, callEvent_eq set]

/-- Event callbacks change nothing but the user's data, and send what each of
them sends. -/
theorem callEvents_cases {property : Emit → Prop} {self after : Server U} {calls : List EventCall}
    {emitted : List Emit}
    (sends : ∀ server uuid scope time value user emitted,
      event server uuid scope time value = .ok (user, emitted) → ∀ emit ∈ emitted, property emit)
    (called : callEvents event self calls = .ok (after, emitted)) :
    (∃ user, after = { self with user := user }) ∧ ∀ emit ∈ emitted, property emit := by
  induction calls generalizing self emitted with
  | nil =>
      cases called
      exact ⟨⟨_, rfl⟩, by simp⟩
  | cons call rest ih =>
      obtain ⟨⟨user, first⟩, calling, continued⟩ := Exec.bind_eq_ok.mp called
      obtain ⟨⟨last, later⟩, looped, done⟩ := Exec.bind_eq_ok.mp continued
      cases done
      obtain ⟨⟨final, kept⟩, laterSends⟩ := ih looped
      refine ⟨⟨final, kept⟩, ?_⟩
      rw [List.forall_mem_append]
      exact ⟨sends _ _ _ _ _ _ _ calling, laterSends⟩

theorem callEvents_total (motive : Server U → Prop) (property : Emit → Prop)
    (each : ∀ server uuid scope time value, motive server → ∃ user emitted,
      event server uuid scope time value = .ok (user, emitted) ∧
      motive { server with user := user } ∧ ∀ emit ∈ emitted, property emit)
    {self : Server U} (holds : motive self) (calls : List EventCall) :
    ∃ after emitted, callEvents event self calls = .ok (after, emitted) ∧ motive after ∧
      ∀ emit ∈ emitted, property emit := by
  induction calls generalizing self with
  | nil => exact ⟨self, [], rfl, holds, fun _ => nofun⟩
  | cons call rest ih =>
      obtain ⟨user, first, called, kept, firstSends⟩ :=
        each self call.uuid call.scope call.time call.value holds
      obtain ⟨after, later, ran, final, laterSends⟩ := ih kept
      refine ⟨after, first ++ later, ?_, final, ?_⟩
      · simp only [callEvents, called, ran, Exec.ok_bind, Exec.pure_eq_ok]
      · rw [List.forall_mem_append]
        exact ⟨firstSends, laterSends⟩

end Server

end LibNrm
