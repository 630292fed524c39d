import LibNrm.Daemon

namespace LibNrm

/-! What `nrm_state_t` is for: four finite maps in insertion order, each from the
uuid of an object to the object.  A `Registry` cannot hold a key twice, nor an
object under a key that is not its own, nor an actuator that a request could not
be carried out on; the operations below keep it so.
-/

structure Catalog {α : Type} (uuid : α → NrmString) extends Data.OrdMap NrmString α where
  named : toTable.All fun key object => key = uuid object

namespace Catalog

variable {α : Type} {uuid : α → NrmString}

def empty : Catalog uuid := ⟨.empty, Data.Table.all_empty _⟩

def register (catalog : Catalog uuid) (object : α) : Catalog uuid where
  toOrdMap := catalog.insertNew (uuid object) object
  named := by
    rw [← Hash.add_refines_insertNew]
    exact Hash.add_all catalog.named rfl

def update (catalog : Catalog uuid) (key : NrmString) (change : α → α)
    (kept : ∀ object, uuid (change object) = uuid object) : Catalog uuid where
  toOrdMap := catalog.adjust key change
  named := catalog.named.modify fun object same => same.trans (kept object).symm

theorem keyed (catalog : Catalog uuid) : State.Keyed uuid catalog.toTable :=
  ⟨catalog.distinct, catalog.named⟩

theorem add_eq_register (catalog : Catalog uuid) (object : α) :
    (Hash.add catalog.toTable (uuid object) object).2 = (catalog.register object).toTable :=
  Hash.add_refines_insertNew catalog.toOrdMap (uuid object) object

end Catalog

/-- An actuator the server can encode, correct a value for, and send to. -/
structure Actuator.Ready (actuator : Actuator) : Prop where
  consistent : actuator.Consistent
  owned : ∃ owner, actuator.clientid = some owner

structure Registry where
  actuators : Catalog Actuator.uuid
  scopes : Catalog Scope.uuid
  sensors : Catalog Sensor.uuid
  slices : Catalog Slice.uuid
  ready : actuators.toTable.All fun _ actuator => actuator.Ready

inductive Object where
  | slice (slice : Slice)
  | sensor (sensor : Sensor)
  | scope (scope : Scope)
  | actuator (actuator : Actuator)
deriving DecidableEq, Repr

namespace Object

def type : Object → TargetType
  | .slice _ => .slice
  | .sensor _ => .sensor
  | .scope _ => .scope
  | .actuator _ => .actuator

def uuid : Object → NrmString
  | .slice object => object.uuid
  | .sensor object => object.uuid
  | .scope object => object.uuid
  | .actuator object => object.uuid

/-- Only an actuator can be unfit for the registry. -/
def Ready : Object → Prop
  | .actuator object => object.Ready
  | _ => True

end Object

namespace State

def find (state : State) : TargetType → NrmString → Option Object
  | .slice, uuid => (state.slices.lookup uuid).map .slice
  | .sensor, uuid => (state.sensors.lookup uuid).map .sensor
  | .scope, uuid => (state.scopes.lookup uuid).map .scope
  | .actuator, uuid => (state.actuators.lookup uuid).map .actuator

def append (state : State) : Object → State
  | .slice slice => { state with slices := state.slices.append slice.uuid slice }
  | .sensor sensor => { state with sensors := state.sensors.append sensor.uuid sensor }
  | .scope scope => { state with scopes := state.scopes.append scope.uuid scope }
  | .actuator actuator =>
      { state with actuators := state.actuators.append actuator.uuid actuator }

/-- What the four `nrm_state_add_x` do once the object is there. -/
def store (state : State) : Object → State
  | .slice slice => { state with slices := (Hash.add state.slices slice.uuid slice).2 }
  | .sensor sensor => { state with sensors := (Hash.add state.sensors sensor.uuid sensor).2 }
  | .scope scope => { state with scopes := (Hash.add state.scopes scope.uuid scope).2 }
  | .actuator actuator =>
      { state with actuators := (Hash.add state.actuators actuator.uuid actuator).2 }

theorem store_of_absent {state : State} {object : Object}
    (absent : state.find object.type object.uuid = none) : state.store object = state.append object := by
  cases object <;>
    simp only [find, Object.type, Object.uuid, Option.map_eq_none_iff] at absent <;>
    simp only [store, append, Hash.add_of_absent _ absent]

theorem store_of_present {state : State} {object old : Object}
    (present : state.find object.type object.uuid = some old) : state.store object = state := by
  cases object <;>
    simp only [find, Object.type, Object.uuid] at present <;>
    obtain ⟨stored, found, _⟩ := Option.map_eq_some_iff.mp present <;>
    simp only [store, Hash.add_of_present _ found]

end State

namespace Registry

def empty : Registry := ⟨.empty, .empty, .empty, .empty, Data.Table.all_empty _⟩

def state (registry : Registry) : State :=
  ⟨registry.actuators.toTable, registry.scopes.toTable, registry.sensors.toTable,
    registry.slices.toTable⟩

def register (registry : Registry) : (object : Object) → object.Ready → Registry
  | .slice slice, _ => { registry with slices := registry.slices.register slice }
  | .sensor sensor, _ => { registry with sensors := registry.sensors.register sensor }
  | .scope scope, _ => { registry with scopes := registry.scopes.register scope }
  | .actuator actuator, ready =>
      { registry with
        actuators := registry.actuators.register actuator
        ready := by
          rw [← Catalog.add_eq_register]
          exact Hash.add_all registry.ready ready }

def setValue (registry : Registry) (uuid : NrmString) (value : ℚ) : Registry :=
  { registry with
    actuators := registry.actuators.update uuid (fun a => a.setValue value) fun _ => rfl
    ready := registry.ready.modify fun _ ready => ⟨ready.consistent.setValue value, ready.owned⟩ }

theorem wellKeyed (registry : Registry) : registry.state.WellKeyed :=
  ⟨registry.actuators.keyed, registry.scopes.keyed, registry.sensors.keyed, registry.slices.keyed⟩

/-- `nrm_state_add_x` refines registration. -/
theorem store_eq_register (registry : Registry) (object : Object) (ready : object.Ready) :
    registry.state.store object = (registry.register object ready).state := by
  cases object <;> simp only [State.store, state, register, Catalog.add_eq_register]

@[simp] theorem setValue_state (registry : Registry) (uuid : NrmString) (value : ℚ) :
    (registry.setValue uuid value).state =
      { registry.state with
        actuators := registry.state.actuators.modify uuid fun a => a.setValue value } := rfl

theorem ready_of_lookup (registry : Registry) {uuid : NrmString} {actuator : Actuator}
    (found : registry.state.actuators.lookup uuid = some actuator) : actuator.Ready :=
  registry.ready.lookup found

end Registry

end LibNrm
