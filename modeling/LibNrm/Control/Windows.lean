import LibNrm.Daemon
import LibNrm.Data.Windows

namespace LibNrm

/-! A trace follows a daemon with a `europar21` control through pushed events,
control ticks and changes of the registry.  Besides the daemon it records the
events pushed for the first input, the latest clock reading, and the series of
every tick whose action moved `lastaction`.
-/

structure Trace where
  server : Server Daemon
  clock : Int
  pushed : List (Event ℚ)
  consumed : List (List (Event ℚ))

namespace Trace

inductive Op where
  /-- an event reaches the daemon at time `now` -/
  | event (uuid : NrmString) (scope : Option Scope) (time : NrmTime) (value : ℚ) (now : NrmTime)
  | tick (env : TickEnv)
  /-- whatever other messages do to the registry -/
  | registry (state : State)

/-- The control's first input, which is the only one its law reads. -/
structure First where
  sensorUuid : NrmString
  scopeUuid : NrmString

def First.arrivals (first : First) (uuid : NrmString) (scope : Option Scope) (e : Event ℚ) :
    List (Event ℚ) :=
  match scope with
  | none => []
  | some scope => if uuid = first.sensorUuid ∧ scope.uuid = first.scopeUuid then [e] else []

def consumedBy (daemon : Daemon) : Option (List (Event ℚ)) :=
  daemon.control.bind fun control => Europar21.consumed control.inputs control.outputs

def step (libm : Libm ℚ) (first : First) (trace : Trace) : Op → Exec Trace
  | .event uuid scope time value now => do
      let (user, _) ← Nrmd.eventCallback trace.server uuid scope time value
      pure { trace with
        server := { trace.server with user := user }
        clock := now.tons
        pushed := trace.pushed ++ first.arrivals uuid scope ⟨time, value⟩ }
  | .tick env => do
      let outcome ← Nrmd.controlTick libm env trace.server
      pure { trace with
        server := outcome.server
        clock := env.action.tons
        consumed := trace.consumed ++ (consumedBy outcome.server.user).toList }
  | .registry state => pure { trace with server := { trace.server with state := state } }

/-- The readings of a tick never decrease and none is before `clock`. -/
structure Ordered (env : TickEnv) (clock : Int) (inputs : Nat) : Prop where
  start : clock ≤ env.start.tons
  pulls : ∀ index < inputs, env.start.tons ≤ (env.pulls index).tons
  ascending : ∀ index < inputs, ∀ later < inputs, index ≤ later →
    (env.pulls index).tons ≤ (env.pulls later).tons
  action : env.start.tons ≤ env.action.tons ∧
    ∀ index < inputs, (env.pulls index).tons ≤ env.action.tons

def Registered (state : State) (uuid : NrmString) : Prop :=
  ∃ scope, state.scopes.lookup uuid = some scope ∧ scope.uuid = uuid

/-- Clock readings never decrease, and the first input's scope is registered at every tick. -/
def Admissible (first : First) (trace : Trace) : Op → Prop
  | .event _ _ _ _ now => trace.clock ≤ now.tons
  | .tick env =>
      (∀ control ∈ trace.server.user.control, Ordered env trace.clock control.inputs.length) ∧
      Registered trace.server.state first.scopeUuid
  | .registry _ => True

instance (env : TickEnv) (clock : Int) (inputs : Nat) : Decidable (Ordered env clock inputs) :=
  decidable_of_iff (clock ≤ env.start.tons ∧
      (∀ index < inputs, env.start.tons ≤ (env.pulls index).tons) ∧
      (∀ index < inputs, ∀ later < inputs, index ≤ later →
        (env.pulls index).tons ≤ (env.pulls later).tons) ∧
      env.start.tons ≤ env.action.tons ∧ ∀ index < inputs, (env.pulls index).tons ≤ env.action.tons)
    ⟨fun ⟨start, pulls, ascending, action⟩ => ⟨start, pulls, ascending, action⟩,
      fun ordered => ⟨ordered.start, ordered.pulls, ordered.ascending, ordered.action⟩⟩

instance (state : State) (uuid : NrmString) : Decidable (Registered state uuid) :=
  decidable_of_iff ((state.scopes.lookup uuid).map Scope.uuid = some uuid)
    Option.map_eq_some_iff

instance (first : First) (trace : Trace) : (op : Op) → Decidable (Admissible first trace op)
  | .event _ _ _ _ now => inferInstanceAs (Decidable (trace.clock ≤ now.tons))
  | .tick env => inferInstanceAs (Decidable
      ((∀ control ∈ trace.server.user.control, Ordered env trace.clock control.inputs.length) ∧
        Registered trace.server.state first.scopeUuid))
  | .registry _ => inferInstanceAs (Decidable True)

def start (libm : Libm ℚ) (creationtime : NrmTime) (config : Europar21.Config ℚ)
    (maxperiods : Nat) (server : Server Daemon) : Trace where
  server := { server with
    user := { server.user with
      events := .create maxperiods
      control := some (Europar21.create libm creationtime config) } }
  clock := creationtime.tons
  pushed := []
  consumed := []

def First.of (config : Europar21.Config ℚ) : Option First :=
  config.inputs.head?.map fun (sensor, scope) => ⟨stringFromchar sensor, stringFromchar scope⟩

def Next (libm : Libm ℚ) (first : First) (before : Trace) (op : Op) (after : Trace) : Prop :=
  Admissible first before op ∧ step libm first before op = .ok after

theorem pullInput_registered {server : Server Daemon} (env : TickEnv) (index : Nat)
    (input : ControlInput ℚ) (sliced : server.user.events.Sliced)
    (registered : Registered server.state input.scopeUuid) :
    ∃ timeserie, Nrmd.pullInput server env index input =
        .ok { input with timeserie := some timeserie } ∧
      timeserie.events = (server.user.events.content input.sensorUuid input.scopeUuid).filter
        fun e => timeToKey input.since ≤ timeToKey e.time ∧
          timeToKey e.time < timeToKey (env.pulls index) := by
  obtain ⟨scope, found, named⟩ := registered
  obtain ⟨timeserie, pulled, events⟩ :=
    sliced.pullTimeserie input.sensorUuid scope input.since (env.pulls index)
  have pointer : Nrmd.inputScope server.state env index input = .object scope := by
    simp only [Nrmd.inputScope, Hash.find_snd, found]
  refine ⟨timeserie, ?_, ?_⟩
  · simp only [Nrmd.pullInput, pointer, pulled, Exec.ok_bind, Exec.pure_eq_ok]
  · rw [events, named]

/-- One tick, seen from the control: the first input is pulled over the window
from `lastaction` to the pull's clock reading, and `lastaction` moves to the
action's clock reading exactly when that series is consumed. -/
theorem controlTick_spec {libm : Libm ℚ} {env : TickEnv} {server : Server Daemon}
    {outcome : Outcome Daemon} {control : Europar21 ℚ} {input : ControlInput ℚ}
    {rest : List (ControlInput ℚ)} (present : server.user.control = some control)
    (inputs : control.inputs = input :: rest) (sliced : server.user.events.Sliced)
    (registered : Registered server.state input.scopeUuid)
    (ticked : Nrmd.controlTick libm env server = .ok outcome) :
    ∃ after timeserie others, outcome.server.user = { server.user with control := some after } ∧
      after.inputs =
        { input with since := control.lastaction, timeserie := some timeserie } :: others ∧
      others.length = rest.length ∧
      timeserie.events = (server.user.events.content input.sensorUuid input.scopeUuid).filter
        (fun e => timeToKey control.lastaction ≤ timeToKey e.time ∧
          timeToKey e.time < timeToKey (env.pulls 0)) ∧
      after.outputs.map ControlOutput.actuatorUuid =
        control.outputs.map ControlOutput.actuatorUuid ∧
      (Europar21.consumed after.inputs after.outputs = none ∧
          after.lastaction = control.lastaction ∧ after.prevE = control.prevE ∨
        Europar21.consumed after.inputs after.outputs = some timeserie.events ∧
          after.lastaction = env.action) := by
  obtain ⟨control', pulled, code, acted, outputs, stored, pulls, action, user⟩ :=
    Nrmd.controlTick_eq_ok ticked
  cases stored.symm.trans present
  obtain ⟨timeserie, head, events⟩ :=
    pullInput_registered env 0 { input with since := control.lastaction } sliced registered
  simp only [Europar21.getargs, inputs, List.map_cons, Nrmd.pullInputs, head, Exec.ok_bind] at pulls
  obtain ⟨others, tail, assembled⟩ := Exec.bind_eq_ok.mp pulls
  cases assembled
  have othersLength : others.length = rest.length := by
    rw [Nrmd.pullInputs_length tail, List.length_map]
  have actuators := Nrmd.readOutputs_actuators server.state control.outputs
  generalize Nrmd.readOutputs server.state control.outputs = before at action actuators
  rcases Europar21.action_cases libm env.action
      { control with inputs := { input with since := control.lastaction,
                                            timeserie := some timeserie } :: others }
      ({ input with since := control.lastaction, timeserie := some timeserie } :: others) before with
    ⟨idle, code, same⟩ | ⟨series, prevE, value, out, more, taken, rfl, moved⟩
  · rw [same] at action
    cases action
    exact ⟨_, timeserie, others, user, rfl, othersLength, events, actuators, .inl ⟨idle, rfl, rfl⟩⟩
  · rw [moved] at action
    cases action
    refine ⟨_, timeserie, others, user, rfl, othersLength, events, actuators, .inr ⟨?_, rfl⟩⟩
    simp only [Europar21.consumed, Timeserie.getEvents, Option.map_some] at taken ⊢
    by_cases several : 1 < timeserie.events.length
    · simp [several]
    · simp [several] at taken

def eventKey (e : Event ℚ) : Int := timeToKey e.time

def view (trace : Trace) (control : Europar21 ℚ) : Data.Windows (Event ℚ) Int :=
  ⟨trace.pushed, trace.consumed, timeToKey control.lastaction⟩

/-- The database holds what was pushed, and the control still reads the input it was configured
with. -/
structure Follows (first : First) (trace : Trace) (control : Europar21 ℚ) : Prop where
  present : trace.server.user.control = some control
  input : ∃ input rest, control.inputs = input :: rest ∧
    input.sensorUuid = first.sensorUuid ∧ input.scopeUuid = first.scopeUuid
  sliced : trace.server.user.events.Sliced
  content : (trace.server.user.events.content first.sensorUuid first.scopeUuid).Perm trace.pushed
  clock : control.lastaction.tons ≤ trace.clock

/-- What each operation does to the windows of a control. -/
inductive Moves (first : First) (control : Europar21 ℚ) (w : Data.Windows (Event ℚ) Int) :
    Op → Data.Windows (Event ℚ) Int → Prop where
  | event (uuid : NrmString) (scope : Option Scope) (time : NrmTime) (value : ℚ) (now : NrmTime) :
      Moves first control w (.event uuid scope time value now)
        (w.push (first.arrivals uuid scope ⟨time, value⟩))
  | idle (env : TickEnv) : Moves first control w (.tick env) w
  | consume (env : TickEnv) (series : List (Event ℚ))
      (taken : series.Perm (w.window eventKey (timeToKey (env.pulls 0))))
      (several : 1 < series.length) (outputs : control.outputs ≠ [])
      (forward : w.mark ≤ timeToKey env.action)
      (passed : timeToKey (env.pulls 0) ≤ timeToKey env.action) :
      Moves first control w (.tick env) (w.take series (timeToKey env.action))
  | registry (state : State) : Moves first control w (.registry state) w

theorem Follows.event {libm : Libm ℚ} {first : First} {trace after : Trace}
    {control : Europar21 ℚ} (follows : Follows first trace control) {uuid : NrmString}
    {scope : Option Scope} {time : NrmTime} {value : ℚ} {now : NrmTime}
    (later : trace.clock ≤ now.tons)
    (stepped : step libm first trace (.event uuid scope time value now) = .ok after) :
    Follows first after control ∧
      after.view control = (trace.view control).push (first.arrivals uuid scope ⟨time, value⟩) := by
  obtain ⟨code, events, emitted, pushes, handled, _⟩ :=
    Nrmd.eventCallback_spec trace.server uuid scope time value
  simp only [step, handled, Exec.ok_bind, Exec.pure_eq_ok, Except.ok.injEq] at stepped
  subst stepped
  refine ⟨⟨follows.present, follows.input, ?_, ?_, le_trans follows.clock later⟩, rfl⟩
  · cases scope with
    | none =>
        cases pushes
        exact follows.sliced
    | some scope =>
        obtain ⟨other, pushed, _, kept⟩ := trace.server.user.events.pushEvent_spec uuid scope time value
        cases pushed.symm.trans pushes
        exact kept follows.sliced
  · cases scope with
    | none =>
        cases pushes
        simpa [First.arrivals] using follows.content
    | some scope =>
        obtain ⟨other, pushed, contents, _⟩ :=
          trace.server.user.events.pushEvent_spec uuid scope time value
        cases pushed.symm.trans pushes
        refine (contents first.sensorUuid first.scopeUuid).trans ?_
        by_cases here : uuid = first.sensorUuid ∧ scope.uuid = first.scopeUuid
        · rw [if_pos ⟨here.1.symm, here.2.symm⟩]
          simp only [First.arrivals, here, and_self, ↓reduceIte]
          exact follows.content.append_right _
        · rw [if_neg fun same => here ⟨same.1.symm, same.2.symm⟩]
          simpa [First.arrivals, here] using follows.content

theorem Follows.tick {libm : Libm ℚ} {first : First} {trace after : Trace}
    {control : Europar21 ℚ} (follows : Follows first trace control) {env : TickEnv}
    (ordered : Ordered env trace.clock control.inputs.length)
    (registered : Registered trace.server.state first.scopeUuid)
    (stepped : step libm first trace (.tick env) = .ok after) :
    ∃ next, Follows first after next ∧
      Moves first control (trace.view control) (.tick env) (after.view next) := by
  obtain ⟨input, rest, inputs, sensor, scope⟩ := follows.input
  obtain ⟨outcome, ticked, done⟩ := Exec.bind_eq_ok.mp stepped
  cases done
  obtain ⟨next, timeserie, others, user, nextInputs, _, events, actuators, acted⟩ :=
    controlTick_spec follows.present inputs follows.sliced (scope ▸ registered) ticked
  have nonempty : 0 < control.inputs.length := by simp [inputs]
  have pullClock : trace.clock ≤ (env.pulls 0).tons := le_trans ordered.start (ordered.pulls 0 nonempty)
  have actionClock : (env.pulls 0).tons ≤ env.action.tons := ordered.action.2 0 nonempty
  have taken : timeserie.events.Perm
      ((trace.view control).window eventKey (timeToKey (env.pulls 0))) := by
    rw [events, sensor, scope]
    exact follows.content.filter _
  have reads : ∀ clock : NrmTime, next.lastaction = clock → clock.tons ≤ env.action.tons →
      Follows first { trace with
        server := outcome.server
        clock := env.action.tons
        consumed := trace.consumed ++ (consumedBy outcome.server.user).toList } next := by
    intro clock last ordered
    refine ⟨by rw [user], ⟨_, others, nextInputs, sensor, scope⟩, ?_, ?_, last ▸ ordered⟩
    · rw [user]
      exact follows.sliced
    · rw [user]
      exact follows.content
  refine ⟨next, ?_⟩
  rcases acted with ⟨idle, same, _⟩ | ⟨consumed, moved⟩
  · refine ⟨reads _ same (by have := follows.clock; omega), ?_⟩
    have unchanged : consumedBy outcome.server.user = none := by
      simp only [consumedBy, user, Option.bind_some, idle]
    simp only [view, unchanged, Option.toList_none, List.append_nil, same]
    exact .idle env
  · refine ⟨reads _ moved le_rfl, ?_⟩
    have recorded : consumedBy outcome.server.user = some timeserie.events := by
      simp only [consumedBy, user, Option.bind_some, consumed]
    obtain ⟨_, _, _, several, someOutput⟩ := Europar21.consumed_eq_some consumed
    have outputs : control.outputs ≠ [] := by
      intro empty
      rw [empty, List.map_nil, List.map_eq_nil_iff] at actuators
      exact someOutput actuators
    simp only [view, recorded, Option.toList_some, moved]
    refine .consume env timeserie.events taken several outputs ?_ (sliceKey_mono actionClock)
    have := follows.clock
    exact sliceKey_mono (by omega)

theorem Follows.step {libm : Libm ℚ} {first : First} {trace after : Trace} {control : Europar21 ℚ}
    (follows : Follows first trace control) {op : Op} (admissible : Admissible first trace op)
    (stepped : step libm first trace op = .ok after) :
    ∃ next, Follows first after next ∧
      Moves first control (trace.view control) op (after.view next) := by
  cases op with
  | event uuid scope time value now =>
      obtain ⟨kept, moved⟩ := follows.event admissible stepped
      refine ⟨control, kept, ?_⟩
      rw [moved]
      exact .event uuid scope time value now
  | tick env => exact follows.tick (admissible.1 control follows.present) admissible.2 stepped
  | registry state =>
      cases stepped
      exact ⟨control, ⟨follows.present, follows.input, follows.sliced, follows.content,
        follows.clock⟩, .registry state⟩

theorem start_follows (libm : Libm ℚ) (creationtime : NrmTime) {config : Europar21.Config ℚ}
    (maxperiods : Nat) (server : Server Daemon) {first : First} (input : First.of config = some first) :
    Follows first (start libm creationtime config maxperiods server)
      (Europar21.create libm creationtime config) := by
  obtain ⟨⟨sensor, scope⟩, head, rfl⟩ := Option.map_eq_some_iff.mp input
  obtain ⟨others, inputs⟩ : ∃ others, config.inputs = (sensor, scope) :: others := by
    cases stored : config.inputs with
    | nil => simp [stored] at head
    | cons pair others =>
        simp only [stored, List.head?_cons, Option.some.injEq] at head
        exact ⟨others, by rw [head]⟩
  refine ⟨rfl, ?_, Data.Table.all_empty _, ?_, le_rfl⟩
  · simp only [Europar21.create, inputs, List.map_cons]
    exact ⟨_, _, rfl, rfl, rfl⟩
  · simp [start, EventBase.content, EventBase.create]

/-- All parameters are zero, so `exp` is only asked for its value at zero. -/
def sampleLibm : Libm ℚ := ⟨fun _ => 1, fun _ => 0⟩

def sampleConfig : Europar21.Config ℚ where
  active := false
  inputs := [([115], [103])]
  outputs := [[97]]
  a := 0
  b := 0
  alpha := 0
  beta := 0
  kl := 0
  t := 0
  e := 0
  tobj := 0
  min := 0
  max := 0

def sampleServer : Server Daemon where
  state := { State.create with scopes := Data.Table.empty.append [103] (scopeCreate [103]) }
  logLevel := 0
  user := ⟨.create 5, none, ⟨[116]⟩, scopeCreate [103], [100], [101]⟩

def sampleStart : Trace := start sampleLibm ⟨0, 1000⟩ sampleConfig 5 sampleServer

def sampleEvent (time now : Int) : Op :=
  .event [115] (some (scopeCreate [103])) ⟨0, time⟩ 1 ⟨0, now⟩

def sampleTick (start pull action : Int) : Op :=
  .tick ⟨⟨0, start⟩, ⟨0, start⟩, fun _ => .null, fun _ => ⟨0, pull⟩, ⟨0, action⟩⟩

theorem Moves.separated {first : First} {control : Europar21 ℚ}
    {w next : Data.Windows (Event ℚ) Int} {op : Op} (moved : Moves first control w op next)
    (separated : w.Separated eventKey) : next.Separated eventKey := by
  cases moved with
  | event uuid scope time value now => exact separated.push _
  | idle env => exact separated
  | consume env series taken several outputs forward passed =>
      exact separated.take taken forward passed
  | registry state => exact separated

/-- In every run no event is in the series of two consuming ticks.  A tick
consumes when it moves `lastaction`; an action with at most one event moves
nothing. -/
theorem run_consumes_once (libm : Libm ℚ) (creationtime : NrmTime) {config : Europar21.Config ℚ}
    (maxperiods : Nat) (server : Server Daemon) {first : First}
    (input : First.of config = some first) {ops : List Op} {final : Trace}
    (ran : Data.Run (Next libm first) (start libm creationtime config maxperiods server) ops final) :
    final.consumed.Pairwise (fun earlier later => ∀ e ∈ earlier, e ∉ later) ∧
    (∀ env outcome, Admissible first final (.tick env) →
      Nrmd.controlTick libm env final.server = .ok outcome →
      ∃ control next, final.server.user.control = some control ∧
        outcome.server.user.control = some next ∧
        (consumedBy outcome.server.user = none ∧ next.lastaction = control.lastaction ∧
            next.prevE = control.prevE ∨
          (∃ series, consumedBy outcome.server.user = some series) ∧
            next.lastaction = env.action)) ∧
    (∀ now data inputs outputs,
      (∀ input events, inputs.head? = some input →
        Timeserie.getEvents input.timeserie = some events → events.length ≤ 1) →
      Europar21.consumed inputs outputs = none ∧
        ∃ code, Europar21.action libm now data inputs outputs = .ok (code, data, outputs)) := by
  have invariant : ∃ control, Follows first final control ∧
      (final.view control).Separated eventKey := by
    refine ran.invariant (motive := fun trace => ∃ control, Follows first trace control ∧
      (trace.view control).Separated eventKey) ?_ ?_
    · exact ⟨_, start_follows libm creationtime maxperiods server input,
        ⟨by simp [view, start], List.Pairwise.nil⟩⟩
    · rintro before op after ⟨control, follows, separated⟩ ⟨admissible, stepped⟩
      obtain ⟨next, kept, moved⟩ := follows.step admissible stepped
      exact ⟨next, kept, moved.separated separated⟩
  obtain ⟨control, follows, separated⟩ := invariant
  refine ⟨separated.disjoint, ?_, ?_⟩
  · intro env outcome admissible ticked
    obtain ⟨firstInput, rest, inputs, sensor, scope⟩ := follows.input
    obtain ⟨next, timeserie, others, user, _, _, _, _, acted⟩ :=
      controlTick_spec follows.present inputs follows.sliced (scope ▸ admissible.2) ticked
    refine ⟨control, next, follows.present, by rw [user], ?_⟩
    simp only [consumedBy, user, Option.bind_some]
    rcases acted with ⟨idle, same, kept⟩ | ⟨consumed, moved⟩
    · exact .inl ⟨idle, same, kept⟩
    · exact .inr ⟨⟨_, consumed⟩, moved⟩
  · intro now data inputs outputs few
    rcases Europar21.action_cases libm now data inputs outputs with
      idle | ⟨events, _, _, _, _, consumed, _⟩
    · exact idle
    · obtain ⟨head, first, present, several, _⟩ := Europar21.consumed_eq_some consumed
      have short := few head events first present
      omega

def sampleOps : List Op :=
  [sampleEvent 1100 1200, sampleEvent 1300 1400, sampleTick 5400 5500 5600,
    sampleEvent 5700 5700, sampleEvent 5800 5900, sampleTick 9000 9100 9200]

/-- Two ticks that both consume. -/
theorem run_consumes_once_sample :
    ∃ final, Data.Run (Next sampleLibm ⟨[115], [103]⟩) sampleStart sampleOps final ∧
      final.consumed.length = 2 ∧
      final.consumed.Pairwise fun earlier later => ∀ e ∈ earlier, e ∉ later := by
  have accept : Data.accepted (step sampleLibm ⟨[115], [103]⟩) (Admissible ⟨[115], [103]⟩)
      sampleStart sampleOps = true := by decide +kernel
  obtain ⟨final, ran, twice⟩ := Data.Run.of_accepted sampleStart sampleOps accept
    (by decide +kernel : ∀ final ∈ (Data.run (step sampleLibm ⟨[115], [103]⟩) sampleStart
      sampleOps).toOption, final.consumed.length = 2)
  exact ⟨final, ran, twice, (run_consumes_once sampleLibm ⟨0, 1000⟩ 5 sampleServer rfl ran).1⟩

/-- An event for the first input does not arrive after an action has moved past its slice; and
when a tick consumes, no event pushed before it lies between the slice of the pull's clock
reading and that of the action's. -/
def Timely (creationtime : NrmTime) (first : First) (trace : Trace) : Op → Prop
  | .event uuid scope time value _ =>
      ∀ control ∈ trace.server.user.control, ∀ e ∈ first.arrivals uuid scope ⟨time, value⟩,
        creationtime.tons ≤ e.time.tons → timeToKey control.lastaction ≤ timeToKey e.time
  | .tick env =>
      ∀ control ∈ trace.server.user.control,
        1 < ((trace.view control).window eventKey (timeToKey (env.pulls 0))).length →
        control.outputs ≠ [] →
        ∀ e ∈ trace.pushed, creationtime.tons ≤ e.time.tons →
          ¬ (timeToKey (env.pulls 0) ≤ timeToKey e.time ∧
            timeToKey e.time < timeToKey env.action)
  | .registry _ => True

instance (creationtime : NrmTime) (first : First) (trace : Trace) :
    (op : Op) → Decidable (Timely creationtime first trace op)
  | .event uuid scope time value _ => inferInstanceAs (Decidable
      (∀ control ∈ trace.server.user.control, ∀ e ∈ first.arrivals uuid scope ⟨time, value⟩,
        creationtime.tons ≤ e.time.tons → timeToKey control.lastaction ≤ timeToKey e.time))
  | .tick env => inferInstanceAs (Decidable
      (∀ control ∈ trace.server.user.control,
        1 < ((trace.view control).window eventKey (timeToKey (env.pulls 0))).length →
        control.outputs ≠ [] →
        ∀ e ∈ trace.pushed, creationtime.tons ≤ e.time.tons →
          ¬ (timeToKey (env.pulls 0) ≤ timeToKey e.time ∧
            timeToKey e.time < timeToKey env.action)))
  | .registry _ => inferInstanceAs (Decidable True)

theorem Follows.covered {creationtime : NrmTime} {first : First} {trace : Trace}
    {control : Europar21 ℚ} (follows : Follows first trace control) {op : Op}
    (timely : Timely creationtime first trace op) {next : Data.Windows (Event ℚ) Int}
    (moved : Moves first control (trace.view control) op next)
    (covered : (trace.view control).Covered eventKey fun e => creationtime.tons ≤ e.time.tons) :
    next.Covered eventKey fun e => creationtime.tons ≤ e.time.tons := by
  cases moved with
  | event uuid scope time value now => exact covered.push (timely control follows.present)
  | idle env => exact covered
  | consume env series taken several outputs forward passed =>
      refine covered.take taken ?_
      rw [taken.length_eq] at several
      exact timely control follows.present several outputs
  | registry state => exact covered

/-- In every run whose steps are timely, every occurrence of a pushed event was
consumed unless a later tick can still pull it. -/
theorem run_skips_nothing (libm : Libm ℚ) (creationtime : NrmTime)
    {config : Europar21.Config ℚ} (maxperiods : Nat) (server : Server Daemon) {first : First}
    (input : First.of config = some first) {ops : List Op} {final : Trace}
    (ran : Data.Run (fun before op after =>
        Timely creationtime first before op ∧ Next libm first before op after)
      (start libm creationtime config maxperiods server) ops final) :
    ∃ control, final.server.user.control = some control ∧
      ∀ e ∈ final.pushed, creationtime.tons ≤ e.time.tons →
        final.pushed.count e ≤ final.consumed.flatten.count e ∨
          timeToKey control.lastaction ≤ timeToKey e.time := by
  have invariant : ∃ control, Follows first final control ∧
      (final.view control).Covered eventKey fun e => creationtime.tons ≤ e.time.tons := by
    refine ran.invariant_of (motive := fun trace => ∃ control, Follows first trace control ∧
      (trace.view control).Covered eventKey fun e => creationtime.tons ≤ e.time.tons) ?_ ?_
    · refine ⟨_, start_follows libm creationtime maxperiods server input, ?_⟩
      intro e _ _
      simp [view, start]
    · rintro before op after ⟨control, follows, covered⟩ timely ⟨admissible, stepped⟩
      obtain ⟨next, kept, moved⟩ := follows.step admissible stepped
      exact ⟨next, kept, follows.covered timely moved covered⟩
  obtain ⟨control, follows, covered⟩ := invariant
  refine ⟨control, follows.present, ?_⟩
  intro e _ created
  rcases lt_or_ge (timeToKey e.time) (timeToKey control.lastaction) with passed | ahead
  · exact .inl (covered e created passed)
  · exact .inr ahead

theorem run_skips_nothing_sample :
    ∃ final, Data.Run (fun before op after => Timely ⟨0, 1000⟩ ⟨[115], [103]⟩ before op ∧
        Next sampleLibm ⟨[115], [103]⟩ before op after) sampleStart sampleOps final ∧
      final.pushed.length = 4 ∧
      ∃ control, final.server.user.control = some control ∧
        ∀ e ∈ final.pushed, (⟨0, 1000⟩ : NrmTime).tons ≤ e.time.tons →
          final.pushed.count e ≤ final.consumed.flatten.count e ∨
            timeToKey control.lastaction ≤ timeToKey e.time := by
  have accept : Data.accepted (step sampleLibm ⟨[115], [103]⟩)
      (fun trace op => Timely ⟨0, 1000⟩ ⟨[115], [103]⟩ trace op ∧
        Admissible ⟨[115], [103]⟩ trace op) sampleStart sampleOps = true := by decide +kernel
  obtain ⟨final, ran, pushed⟩ := Data.Run.of_accepted sampleStart sampleOps accept
    (by decide +kernel : ∀ final ∈ (Data.run (step sampleLibm ⟨[115], [103]⟩) sampleStart
      sampleOps).toOption, final.pushed.length = 4)
  have related := ran.imp (fun before op after stepped =>
    (⟨stepped.1.1, stepped.1.2, stepped.2⟩ : Timely ⟨0, 1000⟩ ⟨[115], [103]⟩ before op ∧
      Next sampleLibm ⟨[115], [103]⟩ before op after))
  exact ⟨final, related, pushed, run_skips_nothing sampleLibm ⟨0, 1000⟩ 5 sampleServer rfl related⟩

def skippingOps : List Op :=
  [sampleEvent 1100 1200, sampleEvent 1300 1400, sampleEvent 5200 5300, sampleTick 5400 5500 6500]

/-- An event is not stamped later than it is pushed. -/
def Op.Stamped : Op → Prop
  | .event _ _ time _ now => time.tons ≤ now.tons
  | _ => True

/-- A tick that pulls at 5500 and acts at 6500 skips the event of time 5200: the
pull leaves the slice of 5000 out and the next window starts at 6000. -/
theorem skipped_event :
    (∀ op ∈ skippingOps, op.Stamped) ∧
    ∃ final, Data.Run (Next sampleLibm ⟨[115], [103]⟩) sampleStart skippingOps final ∧
      ∃ control, final.server.user.control = some control ∧ ∃ e ∈ final.pushed,
        (⟨0, 1000⟩ : NrmTime).tons ≤ e.time.tons ∧ e ∉ final.consumed.flatten ∧
          timeToKey e.time < timeToKey control.lastaction := by
  have accept : Data.accepted (step sampleLibm ⟨[115], [103]⟩) (Admissible ⟨[115], [103]⟩)
      sampleStart skippingOps = true := by decide +kernel
  obtain ⟨final, ran, missed⟩ := Data.Run.of_accepted sampleStart skippingOps accept
    (by decide +kernel : ∀ final ∈ (Data.run (step sampleLibm ⟨[115], [103]⟩) sampleStart
        skippingOps).toOption,
      final.server.user.control.map (fun control => timeToKey control.lastaction) = some 6000 ∧
        (⟨⟨0, 5200⟩, 1⟩ : Event ℚ) ∈ final.pushed ∧ ⟨⟨0, 5200⟩, 1⟩ ∉ final.consumed.flatten)
  obtain ⟨marked, pushed, unseen⟩ := missed
  obtain ⟨control, present, mark⟩ := Option.map_eq_some_iff.mp marked
  refine ⟨?_, final, ran, control, present, _, pushed, by decide, unseen, ?_⟩
  · simp only [skippingOps, List.forall_mem_cons]
    refine ⟨?_, ?_, ?_, trivial, by simp⟩
    all_goals
      change NrmTime.tons _ ≤ NrmTime.tons _
      decide
  · rw [mark]
    decide

end Trace

end LibNrm
