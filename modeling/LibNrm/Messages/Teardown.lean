import LibNrm.Messages.Heap

namespace LibNrm.Heap

open Data (Alloc Balanced Block Owned bind_of_ok calloc calloc_bind destroyAll destroyAll_ok
  liftM_bind)

theorem strdup_run (chars : List UInt8) (next : Nat) :
    strdup chars next = .ok (⟨next, stringFromchar chars⟩, next + 1) := rfl

theorem actuateNew_balanced (uuid : NrmString) (value : ℚ) :
    Balanced (actuateNew uuid value) (fun msg => msg.content.erase)
      (fun msg => .ok (actuateDestroy msg)) ⟨stringFromchar uuid, value⟩ := by
  intro next
  exact ⟨_, _, _, rfl, rfl, rfl, (Owned.single (next + 1)).block⟩

theorem sensorNew_balanced (uuid : NrmString) :
    Balanced (sensorNew uuid) (fun msg => msg.content.erase) (fun msg => .ok (sensorDestroy msg))
      (msgSensorNew uuid) := by
  intro next
  exact ⟨_, _, _, rfl, rfl, rfl, (Owned.single (next + 1)).block⟩

theorem sliceNew_balanced (uuid : NrmString) :
    Balanced (sliceNew uuid) (fun msg => msg.content.erase) (fun msg => .ok (sliceDestroy msg))
      (msgSliceNew uuid) := by
  intro next
  exact ⟨_, _, _, rfl, rfl, rfl, (Owned.single (next + 1)).block⟩

theorem removeNew_balanced (type : TargetType) (uuid : NrmString) :
    Balanced (removeNew type uuid) (fun msg => msg.content.erase)
      (fun msg => .ok (removeDestroy msg)) ⟨type.toInt, stringFromchar uuid⟩ := by
  intro next
  exact ⟨_, _, _, rfl, rfl, rfl, (Owned.single (next + 1)).block⟩

theorem scopeNew_balanced (scope : Scope) :
    Balanced (scopeNew scope) (fun msg => msg.content.erase) (fun msg => .ok (scopeDestroy msg))
      (msgScopeNew scope) := by
  intro next
  have fields := (((Owned.single (next + 1)).append (Owned.single (next + 2))).append
    (Owned.single (next + 3))).append (Owned.single (next + 4))
  exact ⟨_, _, _, rfl, rfl, rfl, fields.block⟩

theorem eventNew_balanced (event : Event ℚ) :
    Balanced (eventNew event) Block.content (fun msg => .ok (eventDestroy msg))
      (msgEventNew event) := by
  intro next
  exact ⟨_, _, _, rfl, rfl, rfl, Owned.single next⟩

theorem clientidNew_balanced (clientid : Option NrmString) :
    Balanced (clientidNew clientid) (Option.map Block.content)
      (fun built => .ok (built.map Block.addr).toList) (clientid.map stringFromchar) := by
  intro next
  cases clientid with
  | none => exact ⟨_, _, _, rfl, rfl, rfl, Owned.nil next⟩
  | some clientid => exact ⟨_, _, _, rfl, rfl, rfl, Owned.single next⟩

/-- The union holds the member its type names, if the type names one. -/
def Tagged (actuator : Actuator) : Prop :=
  (actuator.type = actuatorTypeDiscrete → ∃ choices, actuator.u = .choices choices) ∧
    (actuator.type = actuatorTypeContinuous → ∃ lower upper, actuator.u = .limits lower upper)

theorem Tagged.encoded {actuator : Actuator} (tagged : Tagged actuator) :
    ∃ payload, msgActuatorNew actuator = .ok payload := by
  unfold msgActuatorNew
  split
  · rename_i type
    obtain ⟨choices, u⟩ := tagged.1 type
    simp only [Actuator.choices, u]
    exact ⟨_, rfl⟩
  · split
    · rename_i type
      obtain ⟨lower, upper, u⟩ := tagged.2 type
      simp only [Actuator.limits, u]
      exact ⟨_, rfl⟩
    · exact ⟨_, rfl⟩

theorem actuatorDataNew_balanced {actuator : Actuator} {data : Option LibNrm.MsgActuatorData}
    (copied : actuator.Copied data) :
    Balanced (actuatorDataNew actuator) (Option.map MsgActuatorData.erase)
      (actuatorDataDestroy actuator.type) data := by
  intro next
  cases copied with
  | discrete choices type read =>
      refine ⟨some (.discrete ⟨next, next + 1, choices⟩), next + 2, [next + 1, next], ?_, rfl, ?_,
        (Owned.single (next + 1)).block⟩
      · rw [actuatorDataNew, if_pos type]
        apply bind_of_ok
        rw [actuatorDiscreteNew, calloc_bind, calloc_bind, liftM_bind read]
        rfl
      · rw [actuatorDataDestroy, if_pos type]
  | continuous lmin lmax other type read =>
      refine ⟨some (.continuous ⟨next, lmin, lmax⟩), next + 1, [next], ?_, rfl, ?_,
        Owned.single next⟩
      · rw [actuatorDataNew, if_neg other, if_pos type]
        apply bind_of_ok
        rw [actuatorContinuousNew, calloc_bind, liftM_bind read]
        rfl
      · rw [actuatorDataDestroy, if_neg other, if_pos type]
  | unknown other unknown =>
      refine ⟨none, next, [], ?_, rfl, ?_, Owned.nil next⟩
      · rw [actuatorDataNew, if_neg other, if_neg unknown]
        rfl
      · rw [actuatorDataDestroy, if_neg other, if_neg unknown]

theorem actuatorNew_balanced {actuator : Actuator} {payload : LibNrm.MsgActuator}
    (encoded : msgActuatorNew actuator = .ok payload) :
    Balanced (actuatorNew actuator) (fun msg => msg.content.erase) actuatorDestroy payload := by
  intro next
  obtain ⟨client, middle, clientFreed, clientBuilt, clientSame, clientGiven, clientOwned⟩ :=
    clientidNew_balanced actuator.clientid (next + 2)
  cases clientGiven
  obtain ⟨data, last, dataFreed, dataBuilt, dataSame, dataGiven, dataOwned⟩ :=
    actuatorDataNew_balanced (msgActuatorNew_eq_ok encoded).2 middle
  refine ⟨⟨next, ⟨next + 1, stringFromchar actuator.uuid⟩, client, actuator.value, actuator.type,
    data⟩, last, _, ?_, ?_, ?_, (((Owned.single (next + 1)).append clientOwned).append dataOwned).block⟩
  · rw [actuatorNew, calloc_bind, bind_of_ok (strdup_run _ _), bind_of_ok clientBuilt,
      bind_of_ok dataBuilt]
    rfl
  · simp only [MsgActuator.erase, clientSame, dataSame]
    exact (msgActuatorNew_eq_ok encoded).1.symm
  · simp only [actuatorDestroy, dataGiven, Exec.ok_bind, Exec.pure_eq_ok]

theorem timeserieNew_balanced {timeserie : Timeserie ℚ} {scope : Scope}
    (pointed : timeserie.scope = .object scope) {payload : LibNrm.MsgTimeserie}
    (encoded : msgTimeserieNew timeserie = .ok payload) :
    Balanced (timeserieNew timeserie) (fun msg => msg.content.erase)
      (fun msg => .ok (timeserieDestroy msg)) payload := by
  intro next
  have read : timeserie.scope.deref = .ok scope := by rw [pointed]; rfl
  obtain ⟨built, middle, _, scopeBuilt, scopeSame, scopeGiven, scopeOwned⟩ :=
    scopeNew_balanced scope (next + 2)
  cases scopeGiven
  have eventsBalanced : Balanced (timeserie.events.mapM eventNew) (List.map Block.content)
      (destroyAll fun msg => .ok (eventDestroy msg)) (timeserie.events.map msgEventNew) :=
    .map eventNew_balanced
  obtain ⟨events, last, _, eventsBuilt, eventsSame, eventsGiven, eventsOwned⟩ :=
    eventsBalanced (middle + 1)
  rw [destroyAll_ok] at eventsGiven
  cases eventsGiven
  have owned := (((Owned.single (next + 1)).append scopeOwned).append eventsOwned.block).block
  refine ⟨⟨next, ⟨next + 1, stringFromchar timeserie.sensorUuid⟩, built, timeserie.start.tons, middle,
    events⟩, last, _, ?_, ?_, rfl, ?_⟩
  · rw [timeserieNew, calloc_bind, bind_of_ok (strdup_run _ _), liftM_bind read,
      bind_of_ok scopeBuilt, calloc_bind, bind_of_ok eventsBuilt]
    rfl
  · simp only [msgTimeserieNew, read, Exec.ok_bind, Exec.pure_eq_ok, Except.ok.injEq] at encoded
    rw [← encoded]
    simp only [MsgTimeserie.erase, scopeSame, eventsSame]
  · simpa only [timeserieDestroy, List.append_assoc, List.singleton_append] using owned

theorem listStructNew_balanced {α β γ : Type} {itemNew : α → Alloc Fault (Block β)}
    {erase : β → γ} {itemDestroy : Block β → Exec (List Nat)} {vector : Option (List α)}
    {values : List γ}
    (each : List.Forall₂ (fun item value =>
      Balanced (itemNew item) (fun msg => erase msg.content) itemDestroy value)
        (vector.getD []) values) :
    Balanced (listStructNew itemNew vector) (fun msg => msg.content.erase erase)
      (listStructDestroy itemDestroy) values := by
  intro next
  cases vector with
  | none =>
      cases each
      exact ⟨_, _, _, rfl, rfl, rfl, Owned.single next⟩
  | some items =>
      obtain ⟨built, last, freed, itemsBuilt, itemsSame, itemsGiven, itemsOwned⟩ :=
        Balanced.mapM each (next + 2)
      refine ⟨⟨next, some ⟨next + 1, built⟩⟩, last, _, ?_, itemsSame, ?_, itemsOwned.block.block⟩
      · have array : repeatedNew itemNew (some items) (next + 1) =
            .ok (some ⟨next + 1, built⟩, last) := by
          rw [repeatedNew, calloc_bind]
          exact bind_of_ok itemsBuilt
        rw [listStructNew, calloc_bind]
        exact bind_of_ok array
      · simp only [listStructDestroy, itemsGiven, Exec.ok_bind, Exec.pure_eq_ok]

theorem addNew_balanced {α β : Type} {type : TargetType} {wrap : Block α → MsgAddData}
    {payloadNew : Alloc Fault (Block α)} {erase : Block α → β}
    {destroy : Block α → Exec (List Nat)} (plain : β → LibNrm.MsgAddData) {value : β}
    (inner : Balanced payloadNew erase destroy value)
    (erased : ∀ payload, (wrap payload).erase = plain (erase payload))
    (destroyed : ∀ payload, addDataDestroy ⟨type.toInt, some (wrap payload)⟩ = destroy payload) :
    Balanced (addNew type wrap payloadNew) (fun msg => msg.content.erase) addDestroy
      ⟨type.toInt, some (plain value)⟩ := by
  refine inner.struct (fun addr payload => (⟨addr, type.toInt, some (wrap payload)⟩ : Block MsgAdd))
    (fun value => (⟨type.toInt, some (plain value)⟩ : LibNrm.MsgAdd)) ?_ ?_
  · intro addr payload
    simp only [MsgAdd.erase, Option.map_some, erased]
  · intro addr payload freed given
    simp only [addDestroy, destroyed, given, Exec.ok_bind, Exec.pure_eq_ok]

theorem listNew_balanced {α β : Type} {type : TargetType} {wrap : Block α → MsgListData}
    {payloadNew : Alloc Fault (Block α)} {erase : Block α → β}
    {destroy : Block α → Exec (List Nat)} (plain : β → LibNrm.MsgListData) {value : β}
    (inner : Balanced payloadNew erase destroy value)
    (erased : ∀ payload, (wrap payload).erase = plain (erase payload))
    (destroyed : ∀ payload, listDataDestroy ⟨type.toInt, some (wrap payload)⟩ = destroy payload) :
    Balanced (listNew type wrap payloadNew) (fun msg => msg.content.erase) listDestroy
      ⟨type.toInt, some (plain value)⟩ := by
  refine inner.struct (fun addr payload => (⟨addr, type.toInt, some (wrap payload)⟩ : Block MsgList))
    (fun value => (⟨type.toInt, some (plain value)⟩ : LibNrm.MsgList)) ?_ ?_
  · intro addr payload
    simp only [MsgList.erase, Option.map_some, erased]
  · intro addr payload freed given
    simp only [listDestroy, destroyed, given, Exec.ok_bind, Exec.pure_eq_ok]

def withData {α : Type} (type : MsgType) (wrap : Block α → MsgData)
    (payloadNew : Alloc Fault (Block α)) : Alloc Fault (Block Msg) := do
  let msg ← fill type
  let payload ← payloadNew
  pure (setData msg (wrap payload))

theorem withData_balanced {α β : Type} {type : MsgType} {wrap : Block α → MsgData}
    {payloadNew : Alloc Fault (Block α)} {erase : Block α → β}
    {destroy : Block α → Exec (List Nat)} (plain : β → LibNrm.MsgData) {value : β}
    (inner : Balanced payloadNew erase destroy value)
    (erased : ∀ payload, (wrap payload).erase = plain (erase payload))
    (destroyed : ∀ payload, dataDestroy ⟨type.toInt, some (wrap payload)⟩ = destroy payload) :
    Balanced (withData type wrap payloadNew) (fun msg => msg.content.erase) destroyCreated
      ⟨type.toInt, some (plain value)⟩ := by
  refine inner.struct (fun addr payload => (⟨addr, type.toInt, some (wrap payload)⟩ : Block Msg))
    (fun value => (⟨type.toInt, some (plain value)⟩ : LibNrm.Msg)) ?_ ?_
  · intro addr payload
    simp only [Msg.erase, Option.map_some, erased]
  · intro addr payload freed given
    simp only [destroyCreated, destroyed, given, Exec.ok_bind, Exec.pure_eq_ok]

/-- What a message is filled with after `nrm_msg_create` and `nrm_msg_fill`. -/
inductive Content where
  | bare (type : MsgType)
  | events (timeseries : Option (List (Timeserie ℚ)))
  | actuate (uuid : NrmString) (value : ℚ)
  | add (object : Object)
  | list (vector : Vector)
  | remove (type : TargetType) (uuid : NrmString)

namespace Content

def build : Content → Alloc Fault (Block Msg)
  | .bare type => fill type
  | .events timeseries => do
      let msg ← fill .events
      setEvents msg timeseries
  | .actuate uuid value => do
      let msg ← fill .actuate
      setActuate msg uuid value
  | .add object => do
      let msg ← fill .add
      setAdd msg object
  | .list vector => do
      let msg ← fill .list
      setList msg vector
  | .remove type uuid => do
      let msg ← fill .remove
      setRemove msg type uuid

def msg : Content → Exec LibNrm.Msg
  | .bare type => .ok (LibNrm.Msg.fill type)
  | .events timeseries => (LibNrm.Msg.fill .events).setEvents (timeseries.getD [])
  | .actuate uuid value => .ok ((LibNrm.Msg.fill .actuate).setActuate uuid value)
  | .add object => object.addMsg
  | .list (.slices vector) => .ok ((LibNrm.Msg.fill .list).setListSlices (vector.getD []))
  | .list (.sensors vector) => .ok ((LibNrm.Msg.fill .list).setListSensors (vector.getD []))
  | .list (.scopes vector) => .ok ((LibNrm.Msg.fill .list).setListScopes (vector.getD []))
  | .list (.actuators vector) => (LibNrm.Msg.fill .list).setListActuators (vector.getD [])
  | .remove type uuid => .ok ((LibNrm.Msg.fill .remove).setRemove type uuid)

/-- The pointers that building follows lead to objects. -/
def Encodable : Content → Prop
  | .events timeseries => ∀ ts ∈ timeseries.getD [], ∃ scope, ts.scope = .object scope
  | .add (.actuator actuator) => Tagged actuator
  | .list (.actuators vector) => ∀ actuator ∈ vector.getD [], Tagged actuator
  | _ => True

def HasSeries : Content → Prop
  | .events timeseries => timeseries.getD [] ≠ []
  | _ => False

end Content

theorem addOf_balanced {object : Object} (encodable : (Content.add object).Encodable) :
    ∃ add, object.addMsg = .ok ⟨MsgType.add.toInt, some (.add add)⟩ ∧
      Balanced (addOf object) (fun msg => msg.content.erase) addDestroy add := by
  cases object with
  | slice slice =>
      exact ⟨_, rfl, addNew_balanced .slice (sliceNew_balanced slice.uuid)
        (fun _ => rfl) (fun _ => rfl)⟩
  | sensor sensor =>
      exact ⟨_, rfl, addNew_balanced .sensor (sensorNew_balanced sensor.uuid)
        (fun _ => rfl) (fun _ => rfl)⟩
  | scope scope =>
      exact ⟨_, rfl, addNew_balanced .scope (scopeNew_balanced scope) (fun _ => rfl)
        (fun _ => rfl)⟩
  | actuator actuator =>
      obtain ⟨payload, encoded⟩ := Tagged.encoded encodable
      refine ⟨_, ?_, addNew_balanced .actuator (actuatorNew_balanced encoded)
        (fun _ => rfl) (fun _ => rfl)⟩
      simp only [Object.addMsg, LibNrm.Msg.setAddActuator, encoded, Exec.ok_bind]
      rfl

theorem listStructNew_map {α β γ : Type} {itemNew : α → Alloc Fault (Block β)} {erase : β → γ}
    {itemDestroy : Block β → List Nat} {plain : α → γ}
    (each : ∀ item, Balanced (itemNew item) (fun msg => erase msg.content)
      (fun msg => .ok (itemDestroy msg)) (plain item)) (vector : Option (List α)) :
    Balanced (listStructNew itemNew vector) (fun msg => msg.content.erase erase)
      (listStructDestroy fun msg => .ok (itemDestroy msg)) ((vector.getD []).map plain) := by
  apply listStructNew_balanced
  rw [List.forall₂_map_right_iff, List.forall₂_same]
  intro item _
  exact each item

theorem listOf_balanced {vector : Vector} (encodable : (Content.list vector).Encodable) :
    ∃ list, (Content.list vector).msg = .ok ⟨MsgType.list.toInt, some (.list list)⟩ ∧
      Balanced (listOf vector) (fun msg => msg.content.erase) listDestroy list := by
  cases vector with
  | slices vector =>
      exact ⟨_, rfl, listNew_balanced .slices (listStructNew_map (fun slice : Slice =>
        sliceNew_balanced slice.uuid) vector) (fun _ => rfl) (fun _ => rfl)⟩
  | sensors vector =>
      exact ⟨_, rfl, listNew_balanced .sensors (listStructNew_map (fun sensor : Sensor =>
        sensorNew_balanced sensor.uuid) vector) (fun _ => rfl) (fun _ => rfl)⟩
  | scopes vector =>
      exact ⟨_, rfl, listNew_balanced .scopes (listStructNew_map scopeNew_balanced vector)
        (fun _ => rfl) (fun _ => rfl)⟩
  | actuators vector =>
      obtain ⟨values, encoded, each⟩ : ∃ values, (vector.getD []).mapM msgActuatorNew = .ok values ∧
          List.Forall₂ (fun actuator value => Balanced (actuatorNew actuator)
            (fun msg => msg.content.erase) actuatorDestroy value) (vector.getD []) values := by
        apply Exec.mapM_ok
        intro actuator member
        obtain ⟨payload, built⟩ := (encodable actuator member).encoded
        exact ⟨payload, built, actuatorNew_balanced built⟩
      refine ⟨_, ?_, listNew_balanced .actuators (listStructNew_balanced each) (fun _ => rfl)
        (fun _ => rfl)⟩
      simp only [Content.msg, LibNrm.Msg.setListActuators, encoded, Exec.ok_bind, LibNrm.Msg.fill,
        Exec.pure_eq_ok]

/-- Every message but one with series is given back as it was built. -/
theorem build_balanced {content : Content} (encodable : content.Encodable)
    (without : ∀ timeseries, content ≠ .events timeseries) :
    ∃ value, content.msg = .ok value ∧
      Balanced content.build (fun msg => msg.content.erase) destroyCreated value := by
  cases content with
  | bare type =>
      refine ⟨_, rfl, ?_⟩
      intro next
      refine ⟨_, _, [next], rfl, rfl, ?_, Owned.single next⟩
      cases type <;> rfl
  | events timeseries => exact absurd rfl (without timeseries)
  | actuate uuid value =>
      exact ⟨_, rfl, withData_balanced .actuate (actuateNew_balanced uuid value) (fun _ => rfl)
        (fun _ => rfl)⟩
  | add object =>
      obtain ⟨add, encoded, balanced⟩ := addOf_balanced encodable
      exact ⟨_, encoded, withData_balanced .add balanced (fun _ => rfl) (fun _ => rfl)⟩
  | list vector =>
      obtain ⟨list, encoded, balanced⟩ := listOf_balanced encodable
      exact ⟨_, encoded, withData_balanced .list balanced (fun _ => rfl) (fun _ => rfl)⟩
  | remove type uuid =>
      exact ⟨_, rfl, withData_balanced .remove (removeNew_balanced type uuid) (fun _ => rfl)
        (fun _ => rfl)⟩

theorem timeserielistNew_balanced {timeseries : Option (List (Timeserie ℚ))}
    (encodable : (Content.events timeseries).Encodable) :
    ∃ values, (timeseries.getD []).mapM msgTimeserieNew = .ok values ∧
      values.length = (timeseries.getD []).length ∧
      Balanced (timeserielistNew timeseries) (fun msg => msg.content.erase MsgTimeserie.erase)
        (listStructDestroy fun msg => .ok (timeserieDestroy msg)) values := by
  obtain ⟨values, encoded, each⟩ : ∃ values, (timeseries.getD []).mapM msgTimeserieNew = .ok values ∧
      List.Forall₂ (fun timeserie value => Balanced (timeserieNew timeserie)
        (fun msg => msg.content.erase) (fun msg => .ok (timeserieDestroy msg)) value)
          (timeseries.getD []) values := by
    apply Exec.mapM_ok
    intro timeserie member
    obtain ⟨scope, pointed⟩ := encodable timeserie member
    have built : msgTimeserieNew timeserie = .ok
        { sensorUuid := stringFromchar timeserie.sensorUuid
          scope := some (msgScopeNew scope)
          start := timeserie.start.tons
          events := timeserie.events.map msgEventNew } := by
      simp only [msgTimeserieNew, pointed]
      rfl
    exact ⟨_, built, timeserieNew_balanced pointed built⟩
  exact ⟨values, encoded, each.length_eq.symm, listStructNew_balanced each⟩

/-- The list of series gives back the array and itself, which is enough exactly
when there are no series. -/
theorem timeserielistDestroy_iff {built : Block (Repeated MsgTimeserie)} {first last : Nat}
    {freed : List Nat} (owned : Owned first freed last)
    (given : listStructDestroy (fun msg => .ok (timeserieDestroy msg)) built = .ok freed) :
    Owned first (timeserielistDestroy built) last ↔ built.content.erase MsgTimeserie.erase = [] := by
  obtain ⟨addr, content⟩ := built
  cases content with
  | none =>
      cases given
      exact ⟨fun _ => rfl, fun _ => owned⟩
  | some array =>
      simp only [listStructDestroy, destroyAll_ok, Exec.ok_bind, Exec.pure_eq_ok,
        Except.ok.injEq] at given
      subst given
      obtain ⟨arrayAddr, series⟩ := array
      cases series with
      | nil => exact ⟨fun _ => rfl, fun _ => owned⟩
      | cons head tail =>
          constructor
          · intro enough
            have allocated := owned.length
            have returned := enough.length
            simp only [timeserielistDestroy, Option.map_some, Option.toList_some,
              List.flatMap_cons, List.length_append, List.length_singleton,
              timeserieDestroy] at allocated returned
            omega
          · intro empty
            simp [Repeated.erase] at empty

/-- A message is taken apart into exactly the blocks it was built from, each given
back once, unless it carries series. -/
theorem teardown_iff {content : Content} (encodable : content.Encodable) (next : Nat) :
    ∃ msg last freed, content.build next = .ok (msg, last) ∧
      content.msg = .ok msg.content.erase ∧ destroyCreated msg = .ok freed ∧
      (freed.Perm (List.range' next (last - next)) ↔ ¬ content.HasSeries) := by
  by_cases events : ∃ timeseries, content = .events timeseries
  · obtain ⟨timeseries, rfl⟩ := events
    obtain ⟨values, encoded, sizes, balanced⟩ := timeserielistNew_balanced encodable
    obtain ⟨built, last, freed, done, same, given, owned⟩ := balanced (next + 1)
    refine ⟨⟨next, MsgType.events.toInt, some (.events built)⟩, last,
      timeserielistDestroy built ++ [next], ?_, ?_, rfl, ?_⟩
    · have filled : fill .events next = .ok (⟨next, MsgType.events.toInt, none⟩, next + 1) := rfl
      rw [Content.build, bind_of_ok filled]
      exact bind_of_ok done
    · simp only [Content.msg, LibNrm.Msg.setEvents, encoded, Exec.ok_bind, Exec.pure_eq_ok, Msg.erase,
        Option.map_some, MsgData.erase, same, LibNrm.Msg.fill]
    · have enough := timeserielistDestroy_iff owned given
      have emptied : built.content.erase MsgTimeserie.erase = values := same
      rw [emptied] at enough
      have empty : values = [] ↔ ¬ (Content.events timeseries).HasSeries := by
        rw [Content.HasSeries, not_not, ← List.length_eq_zero_iff, sizes, List.length_eq_zero_iff]
      rw [← empty, ← enough]
      exact ⟨Owned.of_block owned.1, fun inner => inner.block.2⟩
  · obtain ⟨value, encoded, balanced⟩ :=
      build_balanced encodable fun timeseries same => events ⟨timeseries, same⟩
    obtain ⟨msg, last, freed, done, same, given, owned⟩ := balanced next
    refine ⟨msg, last, freed, done, by rw [encoded, ← same], given, ?_⟩
    have none : ¬ content.HasSeries := by
      cases content with
      | events timeseries => exact absurd ⟨timeseries, rfl⟩ events
      | _ => exact fun series => series
    exact ⟨fun _ => none, fun _ => owned.2⟩

/-- A discrete actuator without choices and a continuous one. -/
theorem teardown_iff_sample :
    let content : Content :=
      .list (.actuators (some [Actuator.discreteCreate [97], Actuator.continuousCreate [98]]))
    content.Encodable ∧ ∃ msg last freed, content.build 0 = .ok (msg, last) ∧
      content.msg = .ok msg.content.erase ∧ destroyCreated msg = .ok freed ∧
      (freed.Perm (List.range' 0 (last - 0)) ↔ ¬ content.HasSeries) := by
  intro content
  have encodable : content.Encodable := by
    intro actuator member
    simp only [Option.getD_some, List.mem_cons, List.not_mem_nil, or_false] at member
    obtain rfl | rfl := member
    · exact ⟨fun _ => ⟨[], rfl⟩, fun other => absurd other (by decide)⟩
    · exact ⟨fun other => absurd other (by decide), fun _ => ⟨0, 0, rfl⟩⟩
  exact ⟨encodable, teardown_iff encodable 0⟩

/-- One series with one event: the message takes twelve blocks, and three come back. -/
theorem events_series_leaked :
    let series : Timeserie ℚ := ⟨[115], .object (scopeCreate [103]), [⟨⟨0, 1⟩, 2⟩], ⟨0, 0⟩⟩
    ∃ msg, (Content.events (some [series])).build 0 = .ok (msg, 12) ∧
      destroyCreated msg = .ok [2, 1, 0] ∧ ¬ [2, 1, 0].Perm (List.range' 0 (12 - 0)) := by
  intro series
  exact ⟨_, rfl, rfl, by decide⟩

end LibNrm.Heap
