import LibNrm.Client
import LibNrm.Daemon.Reachable

namespace LibNrm

/-- The registered objects of a type, in the order in which the table took them. -/
def State.objects (state : State) : TargetType → List Object
  | .slice => state.slices.values.map .slice
  | .sensor => state.sensors.values.map .sensor
  | .scope => state.scopes.values.map .scope
  | .actuator => state.actuators.values.map .actuator

section Decoding

variable {α μ : Type}

theorem filter_decoded {items : List α} {encode : α → μ} {decode : μ → Option Object}
    {wrap : α → Object} {uuid : μ → List UInt8} (keep : List UInt8 → Bool)
    (named : ∀ item ∈ items, uuid (encode item) = (wrap item).uuid)
    (inverse : ∀ item ∈ items, decode (encode item) = some (wrap item)) :
    ((items.map encode).filter fun msg => keep (uuid msg)).map decode =
      ((items.map wrap).filter fun object => keep object.uuid).map some := by
  induction items with
  | nil => rfl
  | cons item rest ih =>
      have later := ih (fun item member => named item (List.mem_cons_of_mem _ member))
        (fun item member => inverse item (List.mem_cons_of_mem _ member))
      have same := named item List.mem_cons_self
      by_cases kept : keep (wrap item).uuid = true
      · simp only [List.map_cons, List.filter_cons, same, kept, ↓reduceIte, later,
          inverse item List.mem_cons_self]
      · simp only [List.map_cons, List.filter_cons, same, kept, Bool.false_eq_true, ↓reduceIte, later]

end Decoding

theorem Actuator.Canonical.encoded {actuator : Actuator} (canonical : actuator.Canonical) :
    ∃ payload, LibNrm.msgActuatorNew actuator = .ok payload ∧ payload.uuid = actuator.uuid ∧
      createFrommsg (some payload) = .ok (some actuator) := by
  obtain ⟨payload, built, wellFormed⟩ := canonical.consistent.msgActuatorNew
  refine ⟨payload, built, ?_, ?_⟩
  · rw [(msgActuatorNew_eq_ok built).1]
    exact stringFromchar_of_nulFree canonical.uuid
  · rw [wellFormed.createFrommsg, canonical.roundTrip built]

theorem actuators_decoded {actuators : List Actuator} (keep : List UInt8 → Bool)
    (canonical : ∀ actuator ∈ actuators, actuator.Canonical) :
    ∃ payload, actuators.mapM msgActuatorNew = .ok payload ∧
      ((payload.filter fun item => keep item.uuid).mapM fun item => do
        let actuator ← Actuator.createFrommsg (some item)
        pure (actuator.map Object.actuator)) =
      .ok (((actuators.map Object.actuator).filter fun object => keep object.uuid).map some) := by
  induction actuators with
  | nil => exact ⟨[], rfl, rfl⟩
  | cons actuator rest ih =>
      obtain ⟨first, built, named, decoded⟩ := (canonical actuator List.mem_cons_self).encoded
      obtain ⟨others, encoded, later⟩ :=
        ih fun actuator member => canonical actuator (List.mem_cons_of_mem _ member)
      refine ⟨first :: others, ?_, ?_⟩
      · simp only [List.mapM_cons, built, encoded, Exec.ok_bind, Exec.pure_eq_ok]
      · have same : (Object.actuator actuator).uuid = actuator.uuid := rfl
        simp only [Exec.pure_eq_ok] at later
        by_cases kept : keep actuator.uuid = true
        · simp only [List.filter_cons, named, kept, ↓reduceIte, List.mapM_cons, decoded, Exec.ok_bind,
            Exec.pure_eq_ok, Option.map_some, later, List.map_cons, same]
        · simp only [List.filter_cons, named, kept, Bool.false_eq_true, ↓reduceIte, Exec.pure_eq_ok,
            later, List.map_cons, same]

/-- A client reads from a LIST reply the objects of the registry that it keeps. -/
theorem State.Canonical.objects_listed {U : Type} {self : Server U} (canonical : self.state.Canonical)
    {target : TargetType} {list : MsgList}
    (listed : self.listMsg target = .ok ⟨MsgType.list.toInt, some (.list list)⟩)
    (keep : List UInt8 → Bool) :
    list.objects keep target =
      .ok (((self.state.objects target).filter fun object => keep object.uuid).map some) := by
  cases target with
  | slice =>
      cases listed
      simp only [MsgList.objects, MsgList.slices, Exec.ok_bind, deref_some, Exec.pure_eq_ok,
        State.objects]
      refine congrArg Except.ok (filter_decoded keep ?_ ?_)
      · intro slice listed
        have free := canonical.slices.values slice listed
        exact stringFromchar_of_nulFree free
      · intro slice listed
        have free := canonical.slices.values slice listed
        simp [sliceCreateFrommsg, msgSliceNew, sliceCreate, stringFromchar_of_nulFree free]
  | sensor =>
      cases listed
      simp only [MsgList.objects, MsgList.sensors, Exec.ok_bind, deref_some, Exec.pure_eq_ok,
        State.objects]
      refine congrArg Except.ok (filter_decoded keep ?_ ?_)
      · intro sensor listed
        have free := canonical.sensors.values sensor listed
        exact stringFromchar_of_nulFree free
      · intro sensor listed
        have free := canonical.sensors.values sensor listed
        simp [sensorCreateFrommsg, msgSensorNew, sensorCreate, stringFromchar_of_nulFree free]
  | scope =>
      cases listed
      simp only [MsgList.objects, MsgList.scopes, Exec.ok_bind, deref_some, Exec.pure_eq_ok,
        State.objects]
      refine congrArg Except.ok (filter_decoded keep ?_ ?_)
      · intro scope listed
        have free := canonical.scopes.values scope listed
        exact stringFromchar_of_nulFree free
      · intro scope listed
        have free := canonical.scopes.values scope listed
        simp only [scopeCreateFrommsg, Option.map_some, msgScopeNew_decoded free]
  | actuator =>
      obtain ⟨payload, encoded, decoded⟩ := actuators_decoded keep canonical.actuators.values
      obtain ⟨other, encoding, built⟩ := Exec.bind_eq_ok.mp listed
      cases encoding.symm.trans encoded
      cases built
      simp only [MsgList.objects, MsgList.actuators, Exec.ok_bind, deref_some, State.objects]
      exact decoded

theorem State.Canonical.objects_nulFree {state : State} (canonical : state.Canonical)
    (target : TargetType) : ∀ object ∈ state.objects target, NulFree object.uuid := by
  intro object listed
  cases target with
  | slice =>
      obtain ⟨slice, member, rfl⟩ := List.mem_map.mp listed
      exact canonical.slices.values slice member
  | sensor =>
      obtain ⟨sensor, member, rfl⟩ := List.mem_map.mp listed
      exact canonical.sensors.values sensor member
  | scope =>
      obtain ⟨scope, member, rfl⟩ := List.mem_map.mp listed
      exact canonical.scopes.values scope member
  | actuator =>
      obtain ⟨actuator, member, rfl⟩ := List.mem_map.mp listed
      exact (canonical.actuators.values actuator member).uuid

/-- The keys of the table of a type. -/
def State.uuids (state : State) : TargetType → List NrmString
  | .slice => state.slices.keys
  | .sensor => state.sensors.keys
  | .scope => state.scopes.keys
  | .actuator => state.actuators.keys

theorem State.Keyed.values_uuid {α : Type} {uuid : α → NrmString} {table : Hash α}
    (keyed : State.Keyed uuid table) : table.values.map uuid = table.keys := by
  simp only [Data.Table.values, Data.Table.keys, List.map_map]
  apply List.map_congr_left
  intro entry member
  exact (keyed.named entry member).symm

theorem State.Keyed.mem_values_iff {α : Type} {uuid : α → NrmString} {table : Hash α}
    (keyed : State.Keyed uuid table) {object : α} :
    object ∈ table.values ↔ table.lookup (uuid object) = some object := by
  constructor
  · intro listed
    obtain ⟨⟨key, other⟩, member, rfl⟩ := List.mem_map.mp listed
    have named : key = uuid other := keyed.named _ member
    subst named
    exact keyed.distinct.lookup_of_mem member
  · intro found
    exact List.mem_map.mpr ⟨_, Data.Table.mem_of_lookup found, rfl⟩

theorem State.Sound.wellKeyed {state : State} (sound : state.Sound) : state.WellKeyed := by
  obtain ⟨registry, rfl⟩ := sound.registry
  exact registry.wellKeyed

theorem State.Sound.objects_uuid {state : State} (sound : state.Sound) (target : TargetType) :
    (state.objects target).map Object.uuid = state.uuids target := by
  have keyed := sound.wellKeyed
  cases target with
  | slice => exact (List.map_map ..).trans keyed.slices.values_uuid
  | sensor => exact (List.map_map ..).trans keyed.sensors.values_uuid
  | scope => exact (List.map_map ..).trans keyed.scopes.values_uuid
  | actuator => exact (List.map_map ..).trans keyed.actuators.values_uuid

theorem State.Sound.actuator_mem_objects {state : State} (sound : state.Sound) {a : Actuator} :
    Object.actuator a ∈ state.objects .actuator ↔ state.actuators.lookup a.uuid = some a := by
  rw [← sound.wellKeyed.actuators.mem_values_iff]
  simp [State.objects]

theorem State.Sound.uuids_nodup {state : State} (sound : state.Sound) (target : TargetType) :
    (state.uuids target).Nodup := by
  have keyed := sound.wellKeyed
  cases target with
  | slice => exact keyed.slices.distinct
  | sensor => exact keyed.sensors.distinct
  | scope => exact keyed.scopes.distinct
  | actuator => exact keyed.actuators.distinct

theorem State.Sound.objects_unique {state : State} (sound : state.Sound) (target : TargetType)
    (uuid : NrmString) :
    ((state.objects target).filter fun object => object.uuid = uuid).length ≤ 1 := by
  have nodup : ((state.objects target).map Object.uuid).Nodup := by
    rw [sound.objects_uuid target]
    exact sound.uuids_nodup target
  have once := List.nodup_iff_count_le_one.mp nodup uuid
  have counted : ((state.objects target).filter fun object => object.uuid = uuid).length =
      ((state.objects target).map Object.uuid).count uuid := by
    rw [List.count_eq_countP, List.countP_map, ← List.countP_eq_length_filter]
    apply List.countP_congr
    intro object _
    simp [Function.comp]
  rw [counted]
  exact once

theorem Hash.keys_add {α : Type} (table : Hash α) (uuid : NrmString) (ptr : α) :
    table.keys <+: (Hash.add table uuid ptr).2.keys := by
  cases found : table.lookup uuid with
  | none =>
      rw [Hash.add_of_absent ptr found, Data.Table.keys_append]
      exact List.prefix_append _ _
  | some old =>
      rw [Hash.add_of_present ptr found]

theorem State.uuids_store (state : State) (object : Object) (target : TargetType) :
    state.uuids target <+: (state.store object).uuids target := by
  cases object <;> cases target <;> first
    | exact List.prefix_rfl
    | exact Hash.keys_add _ _ _

theorem State.uuids_setValue (state : State) (uuid : NrmString) (value : ℚ) (target : TargetType) :
    (state.setValue uuid value).uuids target = state.uuids target := by
  cases target with
  | actuator => exact Data.Table.keys_modify _ _ _
  | slice => rfl
  | sensor => rfl
  | scope => rfl

theorem Server.Actuations.uuids {first last : State} {sent : List Emit}
    (carried : Actuations first sent last) (target : TargetType) :
    last.uuids target = first.uuids target := by
  induction carried with
  | done state => rfl
  | actuate uuid value owner found owned rest ih => rw [ih, State.uuids_setValue]

namespace Nrmd

variable {libm : Libm ℚ} {accept : Daemon → Actuator → ℚ → Int}

theorem run_uuids {start final : Server Daemon} {ops : List Op}
    (ran : Data.run (next libm accept) start ops = .ok final) (target : TargetType) :
    start.state.uuids target <+: final.state.uuids target := by
  refine Data.run_history
    (motive := fun _ server => start.state.uuids target <+: server.state.uuids target) ran
    List.prefix_rfl ?_
  intro before middle op after _ held stepped
  obtain ⟨outcome, served, rfl⟩ := next_eq_ok stepped
  cases serve_effect served with
  | add inbound add object turn received wellFormed decoded stored silent =>
      rw [stored]
      exact held.trans (State.uuids_store _ _ _)
  | actuations carried =>
      rw [carried.uuids target]
      exact held

/-- A sound server answers every listing, and the client reads the objects of the
registry out of the answer. -/
theorem roleCallback_lists (libm : Libm ℚ) (accept : Daemon → Actuator → ℚ → Int)
    {server : Server Daemon} (sound : server.state.Sound) (target : TargetType) (clientid : NrmString) (frame : List UInt8) (env : TickEnv) :
    ∃ sent reply, Call.listRequest target = .ok sent ∧
      server.roleCallback (guarded libm accept) ⟨clientid, some sent, frame, env⟩ =
        .ok ⟨0, server, [.send clientid reply]⟩ ∧
      ∀ keep, Call.finishList target keep reply = .ok (.listed
        (((server.state.objects target).filter fun object => keep object.uuid).map some)) := by
  obtain ⟨registry, stored⟩ := sound.registry
  obtain ⟨request, requested, wellFormed, known⟩ : ∃ list : MsgList,
      Call.listRequest target = .ok ⟨MsgType.list.toInt, some (.list list)⟩ ∧ list.WellFormed ∧
        list.type = target.toInt := by
    cases target with
    | slice => exact ⟨_, rfl, .slice _ rfl rfl, rfl⟩
    | sensor => exact ⟨_, rfl, .sensor _ rfl rfl, rfl⟩
    | scope => exact ⟨_, rfl, .scope _ rfl rfl, rfl⟩
    | actuator => exact ⟨_, rfl, .actuator [] rfl rfl (by simp), rfl⟩
  obtain ⟨list, _, type, listed, answered⟩ :=
    server.listCallback_spec registry stored clientid known
  refine ⟨_, ⟨MsgType.list.toInt, some (.list list)⟩, requested, ?_, ?_⟩
  · rw [server.roleCallback_of_wellFormed (guarded libm accept) rfl (.list request rfl rfl wellFormed)]
    exact answered
  · intro keep
    simp only [Call.finishList, Msg.list, Exec.ok_bind, deref_some, type, decide_true, assert_true,
      sound.canonical.objects_listed listed keep, Exec.pure_eq_ok]

/-- What `nrm_client_list_xs` returns is the table of the daemon, in the order in
which the objects were inserted; what `nrm_client_find` returns is the part of it
that has the uuid, at most one object. -/
theorem listing_is_registry {earlier server : Server Daemon} {ops : List Op}
    (reachable : Reachable libm accept earlier)
    (ran : Data.run (next libm accept) earlier ops = .ok server) (target : TargetType)
    (clientid : NrmString) (frame : List UInt8) (env : TickEnv) :
    ∃ sent reply,
      (Call.list target).request = .ok (some sent) ∧
      (∀ uuid, (Call.find target uuid).request = .ok (some sent)) ∧
      server.roleCallback (guarded libm accept) ⟨clientid, some sent, frame, env⟩ =
        .ok ⟨0, server, [.send clientid reply]⟩ ∧
      (Call.list target).finish reply = .ok (.listed ((server.state.objects target).map some)) ∧
      (∀ uuid, (Call.find target uuid).finish reply = .ok (.listed
        (((server.state.objects target).filter fun object =>
          object.uuid = stringFromchar uuid).map some))) ∧
      (∀ uuid, ((server.state.objects target).filter fun object =>
        object.uuid = stringFromchar uuid).length ≤ 1) ∧
      (earlier.state.objects target).map Object.uuid <+:
        (server.state.objects target).map Object.uuid := by
  have before := reachable.sound
  have sound := (reachable.run ran).sound
  obtain ⟨sent, reply, requested, answered, read⟩ :=
    roleCallback_lists libm accept sound target clientid frame env
  refine ⟨sent, reply, ?_, ?_, answered, ?_, ?_, ?_, ?_⟩
  · simp only [Call.request, requested, Exec.ok_bind, Exec.pure_eq_ok]
  · intro uuid
    simp only [Call.request, requested, Exec.ok_bind, Exec.pure_eq_ok]
  · simp only [Call.finish, read, List.filter_true]
  · intro uuid
    have same : ((server.state.objects target).filter fun object =>
          stringFromchar uuid = stringFromchar object.uuid) =
        (server.state.objects target).filter fun object => object.uuid = stringFromchar uuid := by
      apply List.filter_congr
      intro object member
      rw [stringFromchar_of_nulFree (sound.canonical.objects_nulFree target object member)]
      exact decide_eq_decide.mpr eq_comm
    simp only [Call.finish, read, same]
  · intro uuid
    exact sound.objects_unique target (stringFromchar uuid)
  · rw [before.objects_uuid, sound.objects_uuid]
    exact run_uuids ran target

/-- Client `A` registers scopes `g` and `h`; a client that looks for `h` finds it. -/
theorem listing_is_registry_sample :
    ∃ server sent reply,
      Data.run (next ⟨fun _ => 1, fun _ => 0⟩ actuateCallback) fresh
        [.message (inboundAdd [65] ⟨2, some (.scope ⟨[103], [0], [], []⟩)⟩),
          .message (inboundAdd [65] ⟨2, some (.scope ⟨[104], [1], [], []⟩)⟩)] = .ok server ∧
      server.roleCallback (guarded ⟨fun _ => 1, fun _ => 0⟩ actuateCallback)
        ⟨[66], some sent, [], noEnv⟩ = .ok ⟨0, server, [.send [66] reply]⟩ ∧
      (Call.find .scope [104]).finish reply =
        .ok (.listed [some (.scope (MsgScope.decoded ⟨[104], [1], [], []⟩))]) := by
  obtain ⟨server, ran, found⟩ : ∃ server,
      Data.run (next ⟨fun _ => 1, fun _ => 0⟩ actuateCallback) fresh
        [.message (inboundAdd [65] ⟨2, some (.scope ⟨[103], [0], [], []⟩)⟩),
          .message (inboundAdd [65] ⟨2, some (.scope ⟨[104], [1], [], []⟩)⟩)] = .ok server ∧
      (server.state.objects .scope).filter (fun object => object.uuid = stringFromchar [104]) =
        [.scope (MsgScope.decoded ⟨[104], [1], [], []⟩)] := ⟨_, rfl, by decide⟩
  obtain ⟨sent, reply, _, _, answered, _, finds, _⟩ :=
    listing_is_registry ⟨[], fresh, [], rfl, rfl⟩ ran .scope [66] [] noEnv
  refine ⟨server, sent, reply, ran, answered, ?_⟩
  rw [finds [104], found]
  rfl

end Nrmd

end LibNrm
