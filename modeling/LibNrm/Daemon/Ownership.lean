import LibNrm.Daemon.Reachable

namespace LibNrm

namespace State

theorem lookup_setValue (state : State) (uuid other : NrmString) (value : ℚ) :
    (state.setValue uuid value).actuators.lookup other =
      if other = uuid then (state.actuators.lookup other).map fun a => a.setValue value
      else state.actuators.lookup other :=
  Data.Table.lookup_modify _ _ _ _

theorem lookup_store_of_present {state : State} {uuid : NrmString} {a : Actuator} (object : Object)
    (found : state.actuators.lookup uuid = some a) :
    (state.store object).actuators.lookup uuid = some a := by
  cases object with
  | slice object => exact found
  | sensor object => exact found
  | scope object => exact found
  | actuator object =>
      cases taken : state.actuators.lookup object.uuid with
      | none => simp only [store, Hash.add_of_absent object taken, Data.Table.lookup_append, found]
      | some old => simp only [store, Hash.add_of_present object taken, found]

theorem eq_of_lookup_store {state : State} {object : Object} {uuid : NrmString} {a : Actuator}
    (absent : state.actuators.lookup uuid = none)
    (found : (state.store object).actuators.lookup uuid = some a) :
    object = .actuator a ∧ a.uuid = uuid := by
  cases object with
  | slice object => cases absent.symm.trans found
  | sensor object => cases absent.symm.trans found
  | scope object => cases absent.symm.trans found
  | actuator object =>
      cases taken : state.actuators.lookup object.uuid with
      | none =>
          simp only [store, Hash.add_of_absent object taken, Data.Table.lookup_append, absent] at found
          split at found
          · rename_i same
            cases found
            exact ⟨rfl, same⟩
          · cases found
      | some old =>
          simp only [store, Hash.add_of_present object taken] at found
          cases absent.symm.trans found

end State

namespace Server

/-- No command among these names the actuator. -/
def Spares (uuid : NrmString) (emitted : List Emit) : Prop :=
  ∀ dest value, .send dest (command uuid value) ∉ emitted

/-- Actuations change the value of an actuator, and only if they send a command for it. -/
theorem Actuations.lookup {first last : State} {sent : List Emit}
    (carried : Actuations first sent last) {uuid : NrmString} {a : Actuator}
    (found : first.actuators.lookup uuid = some a) :
    ∃ value, last.actuators.lookup uuid = some (a.setValue value) ∧
      (Spares uuid sent → value = a.value) := by
  induction carried generalizing a with
  | done state => exact ⟨a.value, found, fun _ => rfl⟩
  | @actuate state last later b named value owner _ owned rest ih =>
      have before := state.lookup_setValue named uuid value
      rw [found] at before
      by_cases same : uuid = named
      · subst same
        simp only [↓reduceIte, Option.map_some] at before
        obtain ⟨final, reached, _⟩ := ih before
        exact ⟨final, reached, fun spared => absurd List.mem_cons_self (spared _ value)⟩
      · simp only [same, ↓reduceIte] at before
        obtain ⟨final, reached, kept⟩ := ih before
        exact ⟨final, reached, fun spared => kept fun dest other member =>
          spared dest other (List.mem_cons_of_mem _ member)⟩

theorem Actuations.lookup_none {first last : State} {sent : List Emit}
    (carried : Actuations first sent last) {uuid : NrmString}
    (absent : first.actuators.lookup uuid = none) : last.actuators.lookup uuid = none := by
  induction carried with
  | done state => exact absent
  | actuate named value owner found owned rest ih =>
      apply ih
      rw [State.lookup_setValue, absent]
      simp

theorem Actuations.commands {first last : State} {sent : List Emit}
    (carried : Actuations first sent last) {emit : Emit} (member : emit ∈ sent) :
    ∃ uuid a value owner, first.actuators.lookup uuid = some a ∧ a.clientid = some owner ∧
      emit = .send (stringFromchar owner) (command uuid value) := by
  induction carried with
  | done state => cases member
  | @actuate state last later b named value owner found owned rest ih =>
      rcases List.mem_cons.mp member with rfl | later
      · exact ⟨named, b, value, owner, found, owned, rfl⟩
      · obtain ⟨uuid, a, other, receiver, present, belongs, rfl⟩ := ih later
        rw [State.lookup_setValue] at present
        by_cases same : uuid = named
        · subst same
          simp only [found, ↓reduceIte, Option.map_some, Option.some.injEq] at present
          subst present
          exact ⟨uuid, b, other, receiver, found, belongs, rfl⟩
        · simp only [same, ↓reduceIte] at present
          exact ⟨uuid, a, other, receiver, present, belongs, rfl⟩

end Server

theorem MsgAdd.object_clientid {add : MsgAdd} {clientid : NrmString} {a : Actuator}
    (decoded : add.object clientid = some (.actuator a)) :
    a.clientid = some (stringFromchar clientid) := by
  rcases data : add.data with _ | (slice | sensor | scope | actuator) <;>
    simp [MsgAdd.object, data, sliceCreateFrommsg, sensorCreateFrommsg, scopeCreateFrommsg] at decoded
  rw [← decoded]
  rfl

namespace Nrmd

variable {libm : Libm ℚ} {accept : Daemon → Actuator → ℚ → Int} {start final : Server Daemon}
  {ops : List Op}

theorem Effect.lookup {server : Server Daemon} {op : Op} {outcome : Outcome Daemon}
    (effect : Effect server op outcome) {uuid : NrmString} {a : Actuator}
    (found : server.state.actuators.lookup uuid = some a) :
    ∃ value, outcome.server.state.actuators.lookup uuid = some (a.setValue value) ∧
      (Server.Spares uuid outcome.emitted → value = a.value) := by
  cases effect with
  | add inbound add object turn received wellFormed decoded stored silent =>
      refine ⟨a.value, ?_, fun _ => rfl⟩
      rw [stored]
      exact State.lookup_store_of_present object found
  | actuations carried =>
      obtain ⟨value, reached, kept⟩ := carried.lookup found
      refine ⟨value, reached, fun spared => kept fun dest other member => ?_⟩
      exact spared dest other (List.mem_filter.mp member).1

theorem Effect.created {server : Server Daemon} {op : Op} {outcome : Outcome Daemon}
    (effect : Effect server op outcome) {uuid : NrmString} {a : Actuator}
    (absent : server.state.actuators.lookup uuid = none)
    (found : outcome.server.state.actuators.lookup uuid = some a) :
    ∃ inbound add, op = .message inbound ∧
      inbound.msg = some ⟨MsgType.add.toInt, some (.add add)⟩ ∧
      a.clientid = some (stringFromchar inbound.clientid) := by
  cases effect with
  | add inbound add object turn received wellFormed decoded stored silent =>
      rw [stored] at found
      obtain ⟨rfl, _⟩ := State.eq_of_lookup_store absent found
      exact ⟨inbound, add, turn, received, MsgAdd.object_clientid decoded⟩
  | actuations carried => cases (carried.lookup_none absent).symm.trans found

/-- In a run over `ops`, this is the request after which `uuid` is first an entry of the table
of actuators. -/
def Creates (libm : Libm ℚ) (accept : Daemon → Actuator → ℚ → Int) (start : Server Daemon)
    (ops : List Op) (inbound : Server.Inbound TickEnv) (uuid : NrmString) : Prop :=
  ∃ before after middle created, ops = before ++ .message inbound :: after ∧
    Data.run (next libm accept) start before = .ok middle ∧
    next libm accept middle (.message inbound) = .ok created ∧
    middle.state.actuators.lookup uuid = none ∧ created.state.actuators.lookup uuid ≠ none

theorem run_keeps (ran : Data.run (next libm accept) start ops = .ok final) {uuid : NrmString}
    (present : start.state.actuators.lookup uuid ≠ none) :
    final.state.actuators.lookup uuid ≠ none := by
  refine Data.run_history (motive := fun _ server => server.state.actuators.lookup uuid ≠ none)
    ran present ?_
  intro _ middle op after _ held stepped
  obtain ⟨outcome, served, rfl⟩ := next_eq_ok stepped
  obtain ⟨a, found⟩ := Option.ne_none_iff_exists'.mp held
  obtain ⟨value, reached, _⟩ := (serve_effect served).lookup found
  simp [reached]

theorem run_past {before rest : List Op} {op : Op} {middle created last : Server Daemon}
    {uuid : NrmString} (reached : Data.run (next libm accept) start before = .ok middle)
    (stepped : next libm accept middle op = .ok created)
    (present : created.state.actuators.lookup uuid ≠ none)
    (ran : Data.run (next libm accept) start (before ++ op :: rest) = .ok last) :
    last.state.actuators.lookup uuid ≠ none := by
  rw [Data.run_append, reached] at ran
  simp only [Data.run, stepped] at ran
  exact run_keeps ran present

/-- There is one such request: a run that has passed it keeps the entry, so it
never comes to another. -/
theorem Creates.unique {first second : Server.Inbound TickEnv} {uuid : NrmString}
    (one : Creates libm accept start ops first uuid)
    (two : Creates libm accept start ops second uuid) : first = second := by
  obtain ⟨before, after, middle, created, split, reached, stepped, absent, present⟩ := one
  obtain ⟨before', after', middle', created', split', reached', stepped', absent', present'⟩ := two
  rcases List.append_eq_append_iff.mp (split.symm.trans split') with
    ⟨between, longer, rest⟩ | ⟨between, longer, rest⟩
  · cases between with
    | nil => simpa using (List.cons.inj rest).1
    | cons op others =>
        cases (List.cons.inj rest).1
        subst longer
        exact absurd absent' (run_past reached stepped present reached')
  · cases between with
    | nil => simpa using (List.cons.inj rest).1.symm
    | cons op others =>
        cases (List.cons.inj rest).1
        subst longer
        exact absurd absent (run_past reached' stepped' present' reached)

theorem run_owned (empty : start.state.actuators = .empty)
    (ran : Data.run (next libm accept) start ops = .ok final) {uuid : NrmString} {a : Actuator}
    (found : final.state.actuators.lookup uuid = some a) :
    ∃ inbound add, .message inbound ∈ ops ∧
      inbound.msg = some ⟨MsgType.add.toInt, some (.add add)⟩ ∧
      Creates libm accept start ops inbound uuid ∧
      a.clientid = some (stringFromchar inbound.clientid) := by
  refine Data.run_history (motive := fun ops server => ∀ a,
      server.state.actuators.lookup uuid = some a → ∃ inbound add, .message inbound ∈ ops ∧
        inbound.msg = some ⟨MsgType.add.toInt, some (.add add)⟩ ∧
        Creates libm accept start ops inbound uuid ∧
        a.clientid = some (stringFromchar inbound.clientid)) ran ?_ ?_ a found
  · intro a found
    simp [empty] at found
  · intro before middle op after reached held stepped a found
    obtain ⟨outcome, served, rfl⟩ := next_eq_ok stepped
    cases earlier : middle.state.actuators.lookup uuid with
    | none =>
        obtain ⟨inbound, add, rfl, received, owned⟩ := (serve_effect served).created earlier found
        refine ⟨inbound, add, by simp, received,
          ⟨before, [], middle, outcome.server, rfl, reached, stepped, earlier, ?_⟩, owned⟩
        simp [found]
    | some old =>
        obtain ⟨inbound, add, member, received, ⟨first, rest, mid, created, split, others⟩, owned⟩ :=
          held old earlier
        obtain ⟨value, reached, _⟩ := (serve_effect served).lookup earlier
        cases reached.symm.trans found
        refine ⟨inbound, add, by simp [member], received,
          ⟨first, rest ++ [op], mid, created, ?_, others⟩, owned⟩
        simp [split]

/-- A command for the actuator that `inbound` created, addressed to its sender. -/
def ToOwner (libm : Libm ℚ) (accept : Daemon → Actuator → ℚ → Int) (start : Server Daemon)
    (ops : List Op) (final : Server Daemon) (dest : NrmString) (msg : Msg) : Prop :=
  ∃ uuid a value inbound, final.state.actuators.lookup uuid = some a ∧
    Creates libm accept start ops inbound uuid ∧
    Server.msgPushIdentity dest = inbound.clientid ∧
    msg = ⟨MsgType.actuate.toInt, some (.actuate ⟨a.uuid, value⟩)⟩

theorem toOwner_of_actuations (empty : start.state.actuators = .empty) (sound : final.state.Sound)
    (ran : Data.run (next libm accept) start ops = .ok final)
    (identities : ∀ inbound, .message inbound ∈ ops → NulFree inbound.clientid)
    {sent : List Emit} {last : State} (carried : Server.Actuations final.state sent last)
    {dest : NrmString} {msg : Msg} (member : .send dest msg ∈ sent) :
    ToOwner libm accept start ops final dest msg := by
  obtain ⟨uuid, a, value, owner, found, belongs, same⟩ := carried.commands member
  cases same
  obtain ⟨inbound, _, listed, _, creates, owned⟩ := run_owned empty ran found
  cases belongs.symm.trans owned
  have free := identities inbound listed
  obtain ⟨⟨registry, stored⟩, canonical⟩ := sound
  have named : uuid = a.uuid := by
    rw [stored] at found
    exact registry.actuators.named.lookup found
  have uuidFree : NulFree uuid := named ▸ (canonical.actuators.lookup found).uuid
  refine ⟨uuid, a, value, inbound, found, creates, ?_, ?_⟩
  · simp only [Server.msgPushIdentity, stringFromchar_of_nulFree free]
  · rw [← named]
    simp only [Server.command, Msg.setActuate, Msg.fill, stringFromchar_of_nulFree uuidFree]

theorem hwlocScopes_actuators (state : State) (topology : List Discovered) :
    (state.hwlocScopes topology).actuators = state.actuators := by
  induction topology generalizing state with
  | nil => rfl
  | cons found rest ih =>
      simp only [State.hwlocScopes, List.foldl_cons] at ih ⊢
      rw [ih]
      rfl

/-- In every run of the daemon, whatever the messages and whoever sends them: an
actuator carries the transport identity of the one client whose request created
it, and every command, be it sent for a request or by `nrm_server_actuate`, is
addressed to that identity and names that actuator. -/
theorem run_commands_owner (libm : Libm ℚ) (accept : Daemon → Actuator → ℚ → Int)
    (topology : List Discovered) (started : start.state = State.create.hwlocScopes topology)
    (identities : ∀ inbound, .message inbound ∈ ops → NulFree inbound.clientid)
    (ran : Data.run (next libm accept) start ops = .ok final) :
    (∀ uuid a, final.state.actuators.lookup uuid = some a →
      ∃ inbound add, inbound.msg = some ⟨MsgType.add.toInt, some (.add add)⟩ ∧
        Creates libm accept start ops inbound uuid ∧ a.clientid = some inbound.clientid ∧
        ∀ other, Creates libm accept start ops other uuid → other = inbound) ∧
    (∀ op outcome dest msg, serve libm accept final op = .ok outcome →
      .send dest msg ∈ outcome.emitted → msg.type = MsgType.actuate.toInt →
        ToOwner libm accept start ops final dest msg) ∧
    (∀ uuid value after emitted, final.actuate uuid value = .ok (after, emitted) →
      ∀ dest msg, .send dest msg ∈ emitted → ToOwner libm accept start ops final dest msg) := by
  have empty : start.state.actuators = .empty := by
    rw [started, hwlocScopes_actuators]
    rfl
  have sound : final.state.Sound :=
    run_sound (started ▸ State.Sound.create.hwlocScopes topology) ran
  refine ⟨?_, ?_, ?_⟩
  · intro uuid a found
    obtain ⟨inbound, add, listed, received, creates, owned⟩ := run_owned empty ran found
    rw [stringFromchar_of_nulFree (identities inbound listed)] at owned
    exact ⟨inbound, add, received, creates, owned, fun other also => also.unique creates⟩
  · intro op outcome dest msg served member isCommand
    have commanding : Emit.isCommand (.send dest msg) = true := by
      simp [Emit.isCommand, Msg.isCommand, isCommand]
    cases serve_effect served with
    | add inbound add object turn received wellFormed decoded stored silent =>
        cases (silent _ member).symm.trans commanding
    | actuations carried =>
        exact toOwner_of_actuations empty sound ran identities carried
          (List.mem_filter.mpr ⟨member, commanding⟩)
  · intro uuid value after emitted actuated dest msg member
    exact toOwner_of_actuations empty sound ran identities
      (Server.actuations_of_actuate actuated) member

def contestedOps : List Op :=
  [.message (inboundAdd [65] ⟨3, some (.actuator ⟨[97], some [67], 0, 0, some (.discrete [1])⟩)⟩),
    .message (inboundAdd [66] ⟨3, some (.actuator ⟨[97], none, 5, 1, some (.continuous 0 9)⟩)⟩)]

theorem run_commands_owner_sample :
    ∃ final a inbound,
      Data.run (next ⟨fun _ => 1, fun _ => 0⟩ actuateCallback) fresh contestedOps = .ok final ∧
      final.state.actuators.lookup [97] = some a ∧
      Creates ⟨fun _ => 1, fun _ => 0⟩ actuateCallback fresh contestedOps inbound [97] ∧
      a.clientid = some inbound.clientid := by
  obtain ⟨final, a, ran, found⟩ : ∃ final a,
      Data.run (next ⟨fun _ => 1, fun _ => 0⟩ actuateCallback) fresh contestedOps = .ok final ∧
        final.state.actuators.lookup [97] = some a := ⟨_, _, rfl, rfl⟩
  have identities : ∀ inbound, .message inbound ∈ contestedOps → NulFree inbound.clientid := by
    intro inbound member
    simp only [contestedOps, List.mem_cons, Op.message.injEq, List.not_mem_nil, or_false] at member
    rcases member with rfl | rfl <;> simp [inboundAdd, NulFree]
  obtain ⟨inbound, _, _, creates, owned, _⟩ :=
    (run_commands_owner ⟨fun _ => 1, fun _ => 0⟩ actuateCallback [] rfl identities ran).1 [97] a found
  exact ⟨final, a, inbound, ran, found, creates, owned⟩

end Nrmd

end LibNrm
