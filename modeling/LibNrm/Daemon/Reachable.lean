import LibNrm.Data.Run
import LibNrm.Registry.Replies
import LibNrm.Server.Events
import LibNrm.Server.Steps

namespace LibNrm

/-! A daemon starts with the scopes hwloc reports and then handles messages and timer
wakeups, in any order and from anyone.  A handler that faults ends the process,
so the states to consider are those after runs in which every step completed.
The policy of the actuate callback is left open: `nrmd` accepts everything.
-/

def Emit.isCommand : Emit → Bool
  | .send _ msg => msg.isCommand
  | .pub _ _ => false

theorem Server.Actuations.isCommand {first last : State} {sent : List Emit}
    (carried : Actuations first sent last) : ∀ emit ∈ sent, emit.isCommand = true := by
  induction carried with
  | done state => simp
  | actuate uuid value owner found owned rest ih => exact List.forall_mem_cons.mpr ⟨rfl, ih⟩

namespace Nrmd

open Server (Actuations)

inductive Op where
  | message (inbound : Server.Inbound TickEnv)
  | timer (env : TickEnv)

/-- The callbacks of `nrmd`, with another policy in place of `nrmd_actuate_callback`. -/
def guarded (libm : Libm ℚ) (accept : Daemon → Actuator → ℚ → Int) : UserCallbacks Daemon TickEnv :=
  { callbacks libm with actuate := some accept }

variable {libm : Libm ℚ} {accept : Daemon → Actuator → ℚ → Int}

def serve (libm : Libm ℚ) (accept : Daemon → Actuator → ℚ → Int) (server : Server Daemon) :
    Op → Exec (Outcome Daemon)
  | .message inbound => server.roleCallback (guarded libm accept) inbound
  | .timer env => timerCallback libm env server

def next (libm : Libm ℚ) (accept : Daemon → Actuator → ℚ → Int) (server : Server Daemon)
    (op : Op) : Exec (Server Daemon) := do
  let outcome ← serve libm accept server op
  pure outcome.server

theorem next_eq_ok {server after : Server Daemon} {op : Op}
    (stepped : next libm accept server op = .ok after) :
    ∃ outcome, serve libm accept server op = .ok outcome ∧ after = outcome.server := by
  obtain ⟨outcome, served, done⟩ := Exec.bind_eq_ok.mp stepped
  cases done
  exact ⟨outcome, served, rfl⟩

/-- What one step does to the registry and which commands it sends. -/
inductive Effect (server : Server Daemon) (op : Op) (outcome : Outcome Daemon) : Prop where
  | add (inbound : Server.Inbound TickEnv) (add : MsgAdd) (object : Object)
      (turn : op = .message inbound)
      (received : inbound.msg = some ⟨MsgType.add.toInt, some (.add add)⟩)
      (wellFormed : add.WellFormed) (decoded : add.object inbound.clientid = some object)
      (stored : outcome.server.state = server.state.store object)
      (silent : ∀ emit ∈ outcome.emitted, emit.isCommand = false)
  | actuations (carried : Actuations server.state (outcome.emitted.filter Emit.isCommand)
      outcome.server.state)

theorem Effect.of_actuations {server : Server Daemon} {op : Op} {outcome : Outcome Daemon}
    (before commands after : List Emit) (sent : outcome.emitted = before ++ commands ++ after)
    (carried : Actuations server.state commands outcome.server.state)
    (silentBefore : ∀ emit ∈ before, emit.isCommand = false)
    (silentAfter : ∀ emit ∈ after, emit.isCommand = false) : Effect server op outcome := by
  refine .actuations ?_
  have none (emits : List Emit) (silent : ∀ emit ∈ emits, emit.isCommand = false) :
      emits.filter Emit.isCommand = [] := by
    rw [List.filter_eq_nil_iff]
    intro emit member
    simp [silent emit member]
  have kept : outcome.emitted.filter Emit.isCommand = commands := by
    rw [sent, List.filter_append, List.filter_append, none before silentBefore,
      none after silentAfter, List.filter_eq_self.mpr carried.isCommand, List.nil_append,
      List.append_nil]
  rw [kept]
  exact carried

theorem Effect.quiet {server : Server Daemon} {op : Op} {outcome : Outcome Daemon}
    (kept : outcome.server.state = server.state)
    (silent : ∀ emit ∈ outcome.emitted, emit.isCommand = false) : Effect server op outcome :=
  .of_actuations outcome.emitted [] [] (by simp) (kept ▸ .done _) silent (by simp)

theorem eventCallback_pub {server : Server Daemon} {uuid : NrmString} {scope : Option Scope}
    {time : NrmTime} {value : ℚ} {user : Daemon} {emitted : List Emit}
    (handled : eventCallback server uuid scope time value = .ok (user, emitted)) :
    ∀ emit ∈ emitted, emit.isCommand = false := by
  obtain ⟨_, _, sent, _, same, onlyPub⟩ := eventCallback_spec server uuid scope time value
  cases same.symm.trans handled
  intro emit member
  obtain ⟨msg, rfl⟩ := onlyPub emit member
  rfl

/-- Every step that completes registers the object of an ADD or carries out
actuations, and does nothing else to the registry. -/
theorem serve_effect {server : Server Daemon} {op : Op} {outcome : Outcome Daemon}
    (served : serve libm accept server op = .ok outcome) : Effect server op outcome := by
  have ack (clientid : NrmString) :
      ∀ emit ∈ [Emit.send clientid (Msg.fill .ack)], emit.isCommand = false := by
    simp only [List.forall_mem_singleton]
    rfl
  cases op with
  | timer env =>
      obtain ⟨published, publishes, ticking⟩ := Exec.bind_eq_ok.mp served
      rw [Server.publish_eq] at publishes
      cases publishes
      split at ticking
      · cases ticking
        exact .quiet rfl (by simp [Emit.isCommand])
      · obtain ⟨ticked, ticks, done⟩ := Exec.bind_eq_ok.mp ticking
        cases done
        exact .of_actuations _ ticked.emitted [] (List.append_nil _).symm
          (actuations_of_controlTick ticks) (by simp [Emit.isCommand]) (by simp)
  | message inbound =>
      cases Server.roleCallback_handled served with
      | actuate actuate received handled =>
          rcases Server.actuateCallback_cases handled with rfl | ⟨after, emitted, actuated, rfl⟩
          · exact .quiet rfl (ack _)
          · exact .of_actuations [] emitted _ rfl (Server.actuations_of_actuate actuated) (by simp)
              (ack _)
      | list list received handled =>
          rcases Server.listCallback_cases handled with ⟨_, rfl⟩ | ⟨_, _, _, rfl⟩
          · exact .quiet rfl (by simp)
          · exact .quiet rfl (by simp [Emit.isCommand, Msg.isCommand, MsgType.toInt])
      | add add received handled =>
          rcases Server.addCallback_cases handled with
            ⟨_, rfl⟩ | ⟨_, object, reply, _, wellFormed, decoded, _, rfl⟩
          · exact .quiet rfl (by simp)
          · exact .add inbound add object rfl received wellFormed decoded rfl
              (by simp [Emit.isCommand, Msg.isCommand, MsgType.toInt])
      | events series received handled =>
          obtain ⟨after, emitted, looped, rfl⟩ := Server.eventsCallback_cases handled
          rw [Server.seriesLoop_eq] at looped
          obtain ⟨⟨user, rfl⟩, silent⟩ := Server.callEvents_cases
            (fun _ _ _ _ _ _ _ called => eventCallback_pub called) looped
          exact .quiet rfl silent
      | remove remove received handled =>
          rcases Server.removeCallback_cases handled with ⟨_, rfl⟩ | ⟨_, _, rfl⟩
          · exact .quiet rfl (by simp)
          · exact .quiet rfl (ack _)
      | exit msg received type handled =>
          subst handled
          exact .quiet rfl (ack _)
      | tick msg received type handled =>
          rcases Server.tickCallback_cases handled with ⟨_, rfl⟩ | ⟨tick, ticked, set, ticking, rfl⟩
          · exact .quiet rfl (ack _)
          · cases set
            exact .of_actuations [] ticked.emitted _ rfl (actuations_of_tickCallback ticking)
              (by simp) (ack _)
      | refused msg received type handled =>
          subst handled
          exact .quiet rfl (by simp)

end Nrmd

/-- Every registered object survives its message. -/
structure State.Canonical (state : State) : Prop where
  actuators : state.actuators.All fun _ actuator => actuator.Canonical
  scopes : state.scopes.All fun _ scope => NulFree scope.uuid
  sensors : state.sensors.All fun _ sensor => NulFree sensor.uuid
  slices : state.slices.All fun _ slice => NulFree slice.uuid

theorem Actuator.Canonical.setValue {actuator : Actuator} (canonical : actuator.Canonical) (value : ℚ) :
    (actuator.setValue value).Canonical :=
  ⟨canonical.consistent.setValue value, canonical.uuid, canonical.clientid, canonical.sorted⟩

theorem State.Canonical.store {state : State} (canonical : state.Canonical) {object : Object}
    (new : object.Canonical) : (state.store object).Canonical := by
  cases object with
  | slice object => exact { canonical with slices := Hash.add_all canonical.slices new }
  | sensor object => exact { canonical with sensors := Hash.add_all canonical.sensors new }
  | scope object => exact { canonical with scopes := Hash.add_all canonical.scopes new }
  | actuator object => exact { canonical with actuators := Hash.add_all canonical.actuators new }

structure State.Sound (state : State) : Prop where
  registry : ∃ registry : Registry, state = registry.state
  canonical : state.Canonical

theorem State.Sound.setValue {state : State} (sound : state.Sound) (uuid : NrmString) (value : ℚ) :
    (state.setValue uuid value).Sound := by
  obtain ⟨⟨registry, stored⟩, canonical⟩ := sound
  refine ⟨⟨registry.setValue uuid value, by rw [stored]; rfl⟩, ?_⟩
  exact { canonical with
    actuators := canonical.actuators.modify fun _ canonical => canonical.setValue value }

theorem State.Sound.store {state : State} (sound : state.Sound) {object : Object}
    (ready : object.Ready) (canonical : object.Canonical) : (state.store object).Sound := by
  obtain ⟨⟨registry, stored⟩, others⟩ := sound
  refine ⟨⟨registry.register object ready, ?_⟩, others.store canonical⟩
  rw [stored, registry.store_eq_register object ready]

theorem Server.Actuations.sound {first last : State} {sent : List Emit}
    (carried : Actuations first sent last) (sound : first.Sound) : last.Sound := by
  induction carried with
  | done state => exact sound
  | actuate uuid value owner found owned rest ih => exact ih (sound.setValue uuid value)

/-- A scope reported by hwloc. -/
structure Discovered where
  name : List UInt8
  cpu : Bitmap
  numa : Bitmap
  gpu : Bitmap

def Discovered.scope (found : Discovered) : Scope :=
  { scopeCreate found.name with cpu := found.cpu, numa := found.numa, gpu := found.gpu }

/-- `nrm_scope_hwloc_scopes`, for the topology that hwloc found. -/
def State.hwlocScopes (state : State) (topology : List Discovered) : State :=
  topology.foldl (fun state found => state.store (.scope found.scope)) state

theorem State.Sound.create : State.create.Sound where
  registry := ⟨.empty, rfl⟩
  canonical := ⟨Data.Table.all_empty _, Data.Table.all_empty _, Data.Table.all_empty _,
    Data.Table.all_empty _⟩

theorem State.Sound.hwlocScopes {state : State} (sound : state.Sound) (topology : List Discovered) :
    (state.hwlocScopes topology).Sound := by
  induction topology generalizing state with
  | nil => exact sound
  | cons found rest ih => exact ih (sound.store trivial (stringFromchar_nulFree found.name))

namespace Nrmd

variable {libm : Libm ℚ} {accept : Daemon → Actuator → ℚ → Int}

def Reachable (libm : Libm ℚ) (accept : Daemon → Actuator → ℚ → Int) (server : Server Daemon) : Prop :=
  ∃ topology start ops, start.state = State.create.hwlocScopes topology ∧
    Data.run (next libm accept) start ops = .ok server

theorem next_sound {server after : Server Daemon} {op : Op} (sound : server.state.Sound)
    (stepped : next libm accept server op = .ok after) : after.state.Sound := by
  obtain ⟨outcome, served, rfl⟩ := next_eq_ok stepped
  cases serve_effect served with
  | add inbound add object turn received wellFormed decoded stored silent =>
      obtain ⟨other, same, ready, _⟩ := wellFormed.object inbound.clientid
      cases same.symm.trans decoded
      rw [stored]
      exact sound.store ready (wellFormed.object_canonical decoded)
  | actuations carried => exact carried.sound sound

theorem run_sound {start final : Server Daemon} {ops : List Op} (sound : start.state.Sound)
    (ran : Data.run (next libm accept) start ops = .ok final) : final.state.Sound :=
  Data.run_history ran sound fun _ _ _ _ _ held stepped => next_sound held stepped

theorem Reachable.sound {server : Server Daemon} (reachable : Reachable libm accept server) :
    server.state.Sound := by
  obtain ⟨topology, start, ops, started, ran⟩ := reachable
  exact run_sound (started ▸ State.Sound.create.hwlocScopes topology) ran

theorem Reachable.run {server last : Server Daemon} {ops : List Op}
    (reachable : Reachable libm accept server)
    (ran : Data.run (next libm accept) server ops = .ok last) : Reachable libm accept last := by
  obtain ⟨topology, start, before, started, reached⟩ := reachable
  refine ⟨topology, start, before ++ ops, started, ?_⟩
  rw [Data.run_append, reached]
  exact ran

end Nrmd

end LibNrm
