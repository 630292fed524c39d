import LibNrm.Daemon.Actuation
import LibNrm.EventBase.Order

namespace LibNrm

namespace Actuator

/-- The held value is one that the correction leaves alone: one of the choices or inside the
limits, or one that no choice is near enough to replace. -/
def Steady (actuator : Actuator) : Prop :=
  match actuator.u with
  | .choices choices =>
      choices = [] ∨ actuator.value ∈ choices ∨
        ((∀ first ∈ choices.head?, first ≤ actuator.value) ∧
          (∀ last ∈ choices.getLast?, actuator.value ≤ last) ∧
          ∀ choice ∈ choices, dblMax ≤ |actuator.value - choice|)
  | .limits lower upper => lower ≤ actuator.value ∧ actuator.value ≤ upper

theorem continuous_steady_iff {actuator : Actuator} {lower upper : ℚ}
    (u : actuator.u = .limits lower upper) {value corrected : ℚ} {code : Int}
    (computed : actuator.continuousCorrectedValue value = .ok (code, corrected)) :
    corrected = value ↔ lower ≤ value ∧ value ≤ upper := by
  simp only [continuousCorrectedValue, Actuator.limits, u, Exec.ok_bind] at computed
  by_cases below : value < lower
  · rw [if_pos below] at computed
    cases computed
    exact ⟨fun same => absurd below (same ▸ lt_irrefl _),
      fun inside => absurd below (not_lt.mpr inside.1)⟩
  · rw [if_neg below] at computed
    by_cases above : value > upper
    · rw [if_pos above] at computed
      cases computed
      exact ⟨fun same => absurd above (same ▸ lt_irrefl _),
        fun inside => absurd above (not_lt.mpr inside.2)⟩
    · rw [if_neg above] at computed
      cases computed
      exact ⟨fun _ => ⟨not_lt.mp below, not_lt.mp above⟩, fun _ => rfl⟩

/-- The search gives back the value it starts from if that is one of the choices
or if none of them is near enough. -/
theorem nearest_eq_self_iff (choices : List ℚ) (value : ℚ) :
    nearest value choices value dblMax = value ↔
      value ∈ choices ∨ ∀ choice ∈ choices, dblMax ≤ |value - choice| := by
  by_cases near : ∃ choice ∈ choices, |value - choice| < dblMax
  · constructor
    · intro same
      have chosen : nearest value choices value dblMax ∈ choices := nearest_mem near
      exact .inl (same ▸ chosen)
    · rintro (listed | far)
      · exact nearest_of_mem listed dblMax_pos
      · obtain ⟨choice, listed, close⟩ := near
        exact absurd close (not_lt.mpr (far choice listed))
  · have far : ∀ choice ∈ choices, dblMax ≤ |value - choice| :=
      fun choice listed => not_lt.mp fun close => near ⟨choice, listed, close⟩
    exact ⟨fun _ => .inr far, fun _ => nearest_eq fun choice listed => not_lt.mpr (far choice listed)⟩

theorem discrete_steady_iff {actuator : Actuator} {choices : List ℚ}
    (u : actuator.u = .choices choices) (sorted : choices.Pairwise (· ≤ ·)) {value corrected : ℚ}
    {code : Int} (computed : actuator.discreteCorrectedValue value = .ok (code, corrected)) :
    corrected = value ↔
      choices = [] ∨ value ∈ choices ∨
        ((∀ first ∈ choices.head?, first ≤ value) ∧ (∀ last ∈ choices.getLast?, value ≤ last) ∧
          ∀ choice ∈ choices, dblMax ≤ |value - choice|) := by
  simp only [discreteCorrectedValue, Actuator.choices, u, Exec.ok_bind] at computed
  by_cases empty : choices = []
  · subst empty
    cases computed
    simp
  · have least : ∀ choice ∈ choices, choices.head empty ≤ choice := fun _ => sorted.rel_head
    have greatest : ∀ choice ∈ choices, choice ≤ choices.getLast empty := fun _ => sorted.rel_getLast
    simp only [List.head?_eq_some_head empty, List.getLast?_eq_some_getLast empty,
      Option.mem_some_iff, forall_eq'] at computed ⊢
    by_cases below : value < choices.head empty
    · rw [if_pos below] at computed
      cases computed
      constructor
      · intro same
        exact absurd below (same ▸ lt_irrefl _)
      · rintro (none | listed | ⟨above, _⟩)
        · exact absurd none empty
        · exact absurd below (not_lt.mpr (least value listed))
        · exact absurd below (not_lt.mpr above)
    · rw [if_neg below] at computed
      by_cases above : value > choices.getLast empty
      · rw [if_pos above] at computed
        cases computed
        constructor
        · intro same
          exact absurd above (same ▸ lt_irrefl _)
        · rintro (none | listed | ⟨_, inside, _⟩)
          · exact absurd none empty
          · exact absurd above (not_lt.mpr (greatest value listed))
          · exact absurd above (not_lt.mpr inside)
      · rw [if_neg above] at computed
        cases computed
        have lower := not_lt.mp below
        have upper := not_lt.mp above
        rw [nearest_eq_self_iff]
        simp only [empty, false_or, lower, upper, true_and]

theorem Canonical.steady_iff {actuator : Actuator} (canonical : actuator.Canonical) {code : Int}
    {corrected : ℚ} (computed : actuator.correctedValue actuator.value = .ok (code, corrected)) :
    corrected = actuator.value ↔ actuator.Steady := by
  have sorted := canonical.sorted
  cases canonical.consistent with
  | continuous lower upper type ops u =>
      simp only [correctedValue, ops] at computed
      simp only [Steady, u]
      exact continuous_steady_iff u computed
  | discrete choices type ops u =>
      simp only [correctedValue, ops] at computed
      simp only [Steady, u]
      exact discrete_steady_iff u (sorted choices u) computed

end Actuator

namespace Nrmd

/-- The scope a tick hands to `nrm_eventbase_pull_timeserie` for an input, if it makes the call
at all. -/
def pullMade (server : Server Daemon) (env : TickEnv) (index : Nat) (input : ControlInput ℚ) :
    Option (Ptr Scope) :=
  match inputScope server.state env index input with
  | .null => none
  | scope => some scope

theorem pullMade_of_registered {server : Server Daemon} {input : ControlInput ℚ} {scope : Scope}
    (env : TickEnv) (index : Nat) (found : server.state.scopes.lookup input.scopeUuid = some scope) :
    pullMade server env index input = some (.object scope) := by
  simp only [pullMade, inputScope, Hash.find_snd, found]

theorem pullMade_of_unregistered {server : Server Daemon} {input : ControlInput ℚ} (env : TickEnv)
    (index : Nat) (absent : server.state.scopes.lookup input.scopeUuid = none) :
    pullMade server env index input = none ↔ env.scopes index = .null := by
  simp only [pullMade, inputScope, Hash.find_snd, absent]
  cases env.scopes index with
  | null => simp
  | freedElement => simp
  | object scope => simp

theorem pullInput_of_none {server : Server Daemon} {env : TickEnv} {index : Nat}
    {input : ControlInput ℚ} (skipped : pullMade server env index input = none) :
    pullInput server env index input = .ok input := by
  simp only [pullMade] at skipped
  simp only [pullInput]
  cases pointer : inputScope server.state env index input with
  | null => rfl
  | freedElement => simp [pointer] at skipped
  | object scope => simp [pointer] at skipped

theorem pullInput_of_some {server : Server Daemon} {env : TickEnv} {index : Nat}
    {input : ControlInput ℚ} {scope : Ptr Scope}
    (made : pullMade server env index input = some scope) :
    pullInput server env index input = (do
      let timeserie ← server.user.events.pullTimeserie input.sensorUuid scope input.since
        (env.pulls index)
      pure { input with timeserie := some timeserie }) := by
  simp only [pullMade] at made
  simp only [pullInput]
  cases pointer : inputScope server.state env index input with
  | null => simp [pointer] at made
  | freedElement =>
      simp only [pointer, Option.some.injEq] at made
      subst made
      rfl
  | object found =>
      simp only [pointer, Option.some.injEq] at made
      subst made
      rfl

theorem pullInputs_eq_ok {server : Server Daemon} {env : TickEnv} {index : Nat}
    {inputs pulled : List (ControlInput ℚ)}
    (pulls : pullInputs server env index inputs = .ok pulled) {i : Nat} {seen : ControlInput ℚ}
    (reads : pulled[i]? = some seen) :
    ∃ input, inputs[i]? = some input ∧ pullInput server env (index + i) input = .ok seen := by
  induction inputs generalizing index pulled i with
  | nil =>
      cases pulls
      simp at reads
  | cons input rest ih =>
      obtain ⟨first, head, continued⟩ := Exec.bind_eq_ok.mp pulls
      obtain ⟨others, tail, done⟩ := Exec.bind_eq_ok.mp continued
      cases done
      cases i with
      | zero =>
          cases reads
          exact ⟨input, rfl, head⟩
      | succ i =>
          obtain ⟨other, read, pulled⟩ := ih tail reads
          refine ⟨other, read, ?_⟩
          rw [show index + (i + 1) = index + 1 + i by omega]
          exact pulled

theorem pullInputs_completes {server : Server Daemon} {env : TickEnv} {index : Nat}
    {inputs : List (ControlInput ℚ)}
    (each : ∀ i input, inputs[i]? = some input →
      ∃ seen, pullInput server env (index + i) input = .ok seen) :
    ∃ pulled, pullInputs server env index inputs = .ok pulled := by
  induction inputs generalizing index with
  | nil => exact ⟨[], rfl⟩
  | cons input rest ih =>
      obtain ⟨first, head⟩ := each 0 input rfl
      have later : ∀ i other, rest[i]? = some other →
          ∃ seen, pullInput server env (index + 1 + i) other = .ok seen := by
        intro i other read
        rw [show index + 1 + i = index + (i + 1) by omega]
        exact each (i + 1) other read
      obtain ⟨others, tail⟩ := ih later
      rw [Nat.add_zero] at head
      exact ⟨first :: others, by simp only [pullInputs, head, tail, Exec.ok_bind, Exec.pure_eq_ok]⟩

/-- Each input is pulled with the scope registered under its uuid or not at all,
and what the action sees of it was pulled in this tick or is absent. -/
structure InputsFresh (server : Server Daemon) (env : TickEnv) (inputs : List (ControlInput ℚ)) :
    Prop where
  registered : ∀ i input scope, inputs[i]? = some input →
    server.state.scopes.lookup input.scopeUuid = some scope →
      pullMade server env i input = some (.object scope)
  skipped : ∀ i input, inputs[i]? = some input →
    server.state.scopes.lookup input.scopeUuid = none → pullMade server env i input = none
  current : ∀ pulled, pullInputs server env 0 inputs = .ok pulled →
    ∀ i seen, pulled[i]? = some seen → seen.timeserie = none ∨
      ∃ input scope timeserie, inputs[i]? = some input ∧
        pullMade server env i input = some scope ∧
        server.user.events.pullTimeserie input.sensorUuid scope input.since (env.pulls i) =
          .ok timeserie ∧ seen.timeserie = some timeserie

/-- An input the lookup decides about: found, or not found with nothing left over. -/
def Decided (server : Server Daemon) (env : TickEnv) (i : Nat) (input : ControlInput ℚ) : Prop :=
  (∃ scope, server.state.scopes.lookup input.scopeUuid = some scope) ∨
    (env.scopes i = .null ∧ input.timeserie = none)

theorem pullInput_registered_completes {server : Server Daemon} {env : TickEnv} {i : Nat}
    {input : ControlInput ℚ} {scope : Scope}
    (made : pullMade server env i input = some (.object scope)) :
    ∃ timeserie, server.user.events.pullTimeserie input.sensorUuid (.object scope) input.since
        (env.pulls i) = .ok timeserie ∧
      pullInput server env i input = .ok { input with timeserie := some timeserie } := by
  obtain ⟨timeserie, pulled, _⟩ :=
    server.user.events.pullTimeserie_slices input.sensorUuid scope input.since (env.pulls i)
  refine ⟨timeserie, pulled, ?_⟩
  rw [pullInput_of_some made, pulled]
  rfl

theorem pullInputs_completes_of_registered {server : Server Daemon} {env : TickEnv}
    {inputs : List (ControlInput ℚ)}
    (each : ∀ i input, inputs[i]? = some input →
      server.state.scopes.lookup input.scopeUuid = none → pullMade server env i input = none) :
    ∃ pulled, pullInputs server env 0 inputs = .ok pulled := by
  apply pullInputs_completes
  intro i input read
  rw [Nat.zero_add]
  cases found : server.state.scopes.lookup input.scopeUuid with
  | none => exact ⟨input, pullInput_of_none (each i input read found)⟩
  | some scope =>
      obtain ⟨_, _, pulls⟩ := pullInput_registered_completes (pullMade_of_registered env i found)
      exact ⟨_, pulls⟩

theorem inputsFresh_iff (server : Server Daemon) (env : TickEnv) (inputs : List (ControlInput ℚ)) :
    InputsFresh server env inputs ↔
      ∀ i input, inputs[i]? = some input → Decided server env i input := by
  constructor
  · intro fresh i input read
    cases found : server.state.scopes.lookup input.scopeUuid with
    | some scope => exact .inl ⟨scope, found⟩
    | none =>
        have skips := fresh.skipped i input read found
        -- with every pull on a registered scope, the loop reaches the action
        obtain ⟨pulled, pulls⟩ := pullInputs_completes_of_registered fresh.skipped
        obtain ⟨inside, _⟩ := List.getElem?_eq_some_iff.mp read
        have seenRead := List.getElem?_eq_getElem (pullInputs_length pulls ▸ inside)
        obtain ⟨other, same, pulledInput⟩ := pullInputs_eq_ok pulls seenRead
        cases same.symm.trans read
        rw [Nat.zero_add, pullInput_of_none skips] at pulledInput
        cases pulledInput
        refine .inr ⟨(pullMade_of_unregistered env i found).mp skips, ?_⟩
        rcases fresh.current pulled pulls i _ seenRead with absent | ⟨other, scope, _, same, made, _⟩
        · exact absent
        · cases same.symm.trans read
          cases made.symm.trans skips
  · intro decided
    refine ⟨?_, ?_, ?_⟩
    · intro i input scope _ found
      exact pullMade_of_registered env i found
    · intro i input read absent
      rcases decided i input read with ⟨scope, found⟩ | ⟨null, _⟩
      · cases found.symm.trans absent
      · exact (pullMade_of_unregistered env i absent).mpr null
    · intro pulled pulls i seen seenRead
      obtain ⟨input, read, pulledInput⟩ := pullInputs_eq_ok pulls seenRead
      rw [Nat.zero_add] at pulledInput
      cases found : server.state.scopes.lookup input.scopeUuid with
      | some scope =>
          have made := pullMade_of_registered env i found
          obtain ⟨timeserie, pullsSeries, computed⟩ := pullInput_registered_completes made
          cases computed.symm.trans pulledInput
          exact .inr ⟨input, .object scope, timeserie, read, made, pullsSeries, rfl⟩
      | none =>
          rcases decided i input read with ⟨scope, other⟩ | ⟨null, absent⟩
          · cases other.symm.trans found
          · rw [pullInput_of_none ((pullMade_of_unregistered env i found).mpr null)] at pulledInput
            cases pulledInput
            exact .inl absent

/-- In one tick the control gets the right scopes and nothing but fresh series
exactly when the lookup decides about every input; and what the pulls leave in
the inputs is what the action is called with. -/
theorem tick_inputs_fresh_iff (libm : Libm ℚ) (env : TickEnv) {server : Server Daemon}
    {control : Europar21 ℚ} (configured : server.user.control = some control) :
    (InputsFresh server env control.getargs.inputs ↔
      ∀ i input, control.inputs[i]? = some input → Decided server env i input) ∧
    ∀ outcome, controlTick libm env server = .ok outcome →
      ∃ pulled result, pullInputs server env 0 control.getargs.inputs = .ok pulled ∧
        Europar21.action libm env.action { control with inputs := pulled } pulled
          (readOutputs server.state control.outputs) = .ok result := by
  constructor
  · rw [inputsFresh_iff]
    simp only [Europar21.getargs, List.getElem?_map, Option.map_eq_some_iff]
    constructor
    · intro all i input read
      exact all i { input with since := control.lastaction } ⟨input, read, rfl⟩
    · rintro all i _ ⟨input, read, rfl⟩
      exact all i input read
  · intro outcome ticked
    obtain ⟨other, pulled, code, after, outputs, stored, pulls, acted, _⟩ := controlTick_eq_ok ticked
    cases stored.symm.trans configured
    exact ⟨pulled, _, pulls, acted⟩

def sampleControl : Europar21 ℚ :=
  .create ⟨fun _ => 1, fun _ => 0⟩ ⟨0, 0⟩
    { active := false, inputs := [([115], [103])], outputs := [[97]], a := 1, b := 0, alpha := 1,
      beta := 0, kl := 1, t := 1, e := 0, tobj := 1, min := 0, max := 1 }

def sampleServer : Server Daemon :=
  { fresh with user := { fresh.user with control := some sampleControl } }

/-- Two inputs of one sensor; only the scope of the first is registered. -/
def watchControl : Europar21 ℚ :=
  { sampleControl with inputs := [⟨[115], [103], ⟨0, 0⟩, none⟩, ⟨[115], [120], ⟨0, 0⟩, none⟩] }

def watchServer (events : EventBase ℚ) : Server Daemon :=
  { fresh with
    state := { fresh.state with scopes := (fresh.state.scopes.add [103] (scopeCreate [103])).2 }
    user := { fresh.user with control := some watchControl, events := events } }

def watchEnv : TickEnv := { noEnv with pulls := fun _ => ⟨9, 0⟩ }

/-- The first input gets the event of its scope, and a local that happens to be NULL makes
up for the missing scope of the second. -/
theorem tick_inputs_fresh_sample :
    ∃ events, fresh.user.events.pushEvent [115] (some (scopeCreate [103])) ⟨1, 0⟩ 2 =
        .ok (0, events) ∧
      InputsFresh (watchServer events) watchEnv watchControl.getargs.inputs ∧
      ∃ pulled, pullInputs (watchServer events) watchEnv 0 watchControl.getargs.inputs = .ok pulled ∧
        pulled.map (fun input => Timeserie.getEvents input.timeserie) =
          [some [⟨⟨1, 0⟩, 2⟩], none] := by
  refine ⟨_, rfl, ?_, _, rfl, by decide +kernel⟩
  have decided (server : Server Daemon)
      (found : server.state.scopes.lookup [103] = some (scopeCreate [103])) :
      ∀ i input, watchControl.inputs[i]? = some input → Decided server watchEnv i input := by
    intro i input read
    match i, read with
    | 0, read =>
        cases read
        exact .inl ⟨_, found⟩
    | 1, read =>
        cases read
        exact .inr ⟨rfl, rfl⟩
  exact (tick_inputs_fresh_iff ⟨fun _ => 1, fun _ => 0⟩ watchEnv
    (show (watchServer _).user.control = some watchControl from rfl)).1.mpr (decided _ rfl)

/-- One that still points to a scope makes the tick pull with that scope, although
nothing is registered under the uuid of the input. -/
theorem unregistered_scope_pulled :
    sampleServer.state.scopes.lookup [103] = none ∧
    sampleControl.getargs.inputs = [⟨[115], [103], ⟨0, 0⟩, none⟩] ∧
    pullMade sampleServer { noEnv with scopes := fun _ => .object (scopeCreate [120]) } 0
      ⟨[115], [103], ⟨0, 0⟩, none⟩ = some (.object (scopeCreate [120])) ∧
    ¬ InputsFresh sampleServer { noEnv with scopes := fun _ => .object (scopeCreate [120]) }
      sampleControl.getargs.inputs := by
  refine ⟨rfl, rfl, rfl, ?_⟩
  intro inputsFresh
  cases inputsFresh.skipped 0 _ rfl rfl

theorem action_inactive (libm : Libm ℚ) (now : NrmTime) {data : Europar21 ℚ}
    (inactive : data.active = false) (inputs : List (ControlInput ℚ))
    (outputs : List (ControlOutput ℚ)) :
    ∃ code after, Europar21.action libm now data inputs outputs = .ok (code, after, outputs) := by
  cases inputs with
  | nil => exact ⟨_, _, rfl⟩
  | cons input others =>
      simp only [Europar21.action]
      cases Timeserie.getEvents input.timeserie with
      | none => exact ⟨_, _, rfl⟩
      | some events =>
          by_cases few : events.length ≤ 1
          · exact ⟨0, data, by simp only [few, ↓reduceIte]⟩
          · obtain ⟨prog, computed⟩ := Europar21.events2progress_completes (not_le.mp few)
            simp only [few, ↓reduceIte, computed, Exec.ok_bind]
            cases outputs with
            | nil => exact ⟨_, _, rfl⟩
            | cons out rest =>
                simp only [inactive, Bool.false_eq_true, ↓reduceIte]
                exact ⟨_, _, rfl⟩

theorem actuateOutputs_completes (server : Server Daemon) (sound : server.state.Sound)
    (outputs : List (ControlOutput ℚ)) :
    ∃ after emitted, actuateOutputs server outputs = .ok (after, emitted) := by
  induction outputs generalizing server with
  | nil => exact ⟨server, [], rfl⟩
  | cons out rest ih =>
      obtain ⟨registry, stored⟩ := sound.registry
      have head : ∃ middle first, server.actuate out.actuatorUuid out.value = .ok (middle, first) := by
        rcases server.actuate_spec registry stored out.actuatorUuid out.value with
          ⟨_, ignored⟩ | ⟨_, _, _, _, _, _, _, actuated⟩
        · exact ⟨_, _, ignored⟩
        · exact ⟨_, _, actuated⟩
      obtain ⟨middle, first, head⟩ := head
      obtain ⟨after, later, tail⟩ := ih middle ((Server.actuations_of_actuate head).sound sound)
      exact ⟨after, first ++ later, by simp only [actuateOutputs, head, tail, Exec.ok_bind,
        Exec.pure_eq_ok]⟩

/-- Outputs that ask for one value per actuator leave each actuator they name
with its correction of that value, however often they name it. -/
theorem actuateOutputs_lookup {server after : Server Daemon} {outputs : List (ControlOutput ℚ)}
    {emitted : List Emit} {requested : NrmString → ℚ}
    (uniform : ∀ out ∈ outputs, out.value = requested out.actuatorUuid)
    (actuated : actuateOutputs server outputs = .ok (after, emitted)) {uuid : NrmString}
    {a : Actuator} {code : Int} {corrected : ℚ}
    (found : server.state.actuators.lookup uuid = some a)
    (computed : a.correctedValue (requested uuid) = .ok (code, corrected)) :
    after.state.actuators.lookup uuid =
      some (if uuid ∈ outputs.map ControlOutput.actuatorUuid then a.setValue corrected else a) := by
  induction outputs generalizing server emitted a with
  | nil =>
      cases actuated
      simpa using found
  | cons out rest ih =>
      obtain ⟨⟨middle, first⟩, head, continued⟩ := Exec.bind_eq_ok.mp actuated
      obtain ⟨⟨last, later⟩, tail, done⟩ := Exec.bind_eq_ok.mp continued
      cases done
      obtain ⟨value, others⟩ := List.forall_mem_cons.mp uniform
      by_cases here : uuid = out.actuatorUuid
      · have named : uuid ∈ (out :: rest).map ControlOutput.actuatorUuid := by simp [here]
        rw [if_pos named]
        rcases Server.actuate_cases head with ⟨absent, _⟩ | ⟨b, _, other, _, same, recomputed, _, stored, _⟩
        · rw [← here, found] at absent
          cases absent
        · rw [← here, found] at same
          cases same
          rw [value, ← here, computed] at recomputed
          cases recomputed
          have set : middle.state.actuators.lookup uuid = some (a.setValue corrected) := by
            rw [stored, ← here]
            simp [State.lookup_setValue, found]
          have final := ih others tail set computed
          split at final <;> exact final
      · have kept : middle.state.actuators.lookup uuid = some a := by
          rcases Server.actuate_cases head with ⟨_, rfl, _⟩ | ⟨_, _, _, _, _, _, _, stored, _⟩
          · exact found
          · rw [stored]
            simp [State.lookup_setValue, here, found]
        have final := ih others tail kept computed
        simpa [here] using final

theorem actuatorValue_of_lookup {state : State} {uuid : NrmString} {a : Actuator}
    (found : state.actuators.lookup uuid = some a) : actuatorValue state uuid = a.value := by
  simp only [actuatorValue, Hash.find_snd, found]

theorem controlTick_inactive {libm : Libm ℚ} {env : TickEnv} {server : Server Daemon}
    {control : Europar21 ℚ} (configured : server.user.control = some control)
    (inactive : control.active = false) {outcome : Outcome Daemon}
    (ticked : controlTick libm env server = .ok outcome) :
    ∃ user last emitted,
      actuateOutputs { server with user := user } (readOutputs server.state control.outputs) =
        .ok (last, emitted) ∧ outcome.server.state = last.state := by
  simp only [controlTick, configured, deref_some, Exec.ok_bind] at ticked
  obtain ⟨inputs, _, acting⟩ := Exec.bind_eq_ok.mp ticked
  obtain ⟨⟨code, after, outputs⟩, acted, actuating⟩ := Exec.bind_eq_ok.mp acting
  obtain ⟨⟨last, emitted⟩, actuated, finished⟩ := Exec.bind_eq_ok.mp actuating
  cases finished
  obtain ⟨_, _, same⟩ := action_inactive libm env.action
    (show ({ control.getargs with inputs := inputs } : Europar21 ℚ).active = false from inactive)
    inputs (readOutputs server.state control.getargs.outputs)
  cases same.symm.trans acted
  exact ⟨_, last, emitted, actuated, rfl⟩

theorem controlTick_inactive_completes {libm : Libm ℚ} {env : TickEnv} {server : Server Daemon}
    (sound : server.state.Sound) {control : Europar21 ℚ}
    (configured : server.user.control = some control) (inactive : control.active = false)
    (registered : ∀ input ∈ control.inputs,
      ∃ scope, server.state.scopes.lookup input.scopeUuid = some scope) :
    ∃ outcome, controlTick libm env server = .ok outcome := by
  have pulls : ∃ pulled, pullInputs server env 0 control.getargs.inputs = .ok pulled := by
    apply pullInputs_completes_of_registered
    intro i input read absent
    obtain ⟨original, member, rfl⟩ := List.mem_map.mp (List.mem_of_getElem? read)
    obtain ⟨scope, found⟩ := registered original member
    cases found.symm.trans absent
  obtain ⟨inputs, pulls⟩ := pulls
  obtain ⟨code, after, acted⟩ := action_inactive libm env.action
    (show ({ control.getargs with inputs := inputs } : Europar21 ℚ).active = false from inactive)
    inputs (readOutputs server.state control.getargs.outputs)
  simp only [controlTick, configured, deref_some, Exec.ok_bind, pulls, acted]
  generalize readOutputs server.state control.getargs.outputs = outputs
  have actuates : ∃ last emitted, actuateOutputs { server with user := { server.user with
      control := some { after with outputs := outputs } } } outputs = .ok (last, emitted) := by
    apply actuateOutputs_completes
    exact sound
  obtain ⟨last, emitted, actuated⟩ := actuates
  rw [actuated]
  exact ⟨_, rfl⟩

/-- A tick of an inactive control leaves every registered value as it is exactly
when the values its outputs name are ones that their corrections leave alone. -/
theorem inactive_tick_iff {libm : Libm ℚ} {accept : Daemon → Actuator → ℚ → Int}
    {server : Server Daemon} (reachable : Reachable libm accept server) (user : Daemon)
    {control : Europar21 ℚ} (configured : user.control = some control)
    (inactive : control.active = false) (env : TickEnv) :
    ((∀ input ∈ control.inputs,
        ∃ scope, server.state.scopes.lookup input.scopeUuid = some scope) →
      ∃ outcome, controlTick libm env { server with user := user } = .ok outcome) ∧
    ∀ outcome, controlTick libm env { server with user := user } = .ok outcome →
      ((∀ uuid a, server.state.actuators.lookup uuid = some a →
          ∃ after, outcome.server.state.actuators.lookup uuid = some after ∧
            after.value = a.value) ↔
        ∀ out ∈ control.outputs, ∀ a,
          server.state.actuators.lookup out.actuatorUuid = some a → a.Steady) := by
  have sound := reachable.sound
  have soundUser : ({ server with user := user } : Server Daemon).state.Sound := sound
  refine ⟨controlTick_inactive_completes soundUser configured inactive, ?_⟩
  intro outcome ticked
  obtain ⟨_, last, emitted, actuated, state⟩ := controlTick_inactive configured inactive ticked
  have uniform : ∀ out ∈ readOutputs server.state control.outputs,
      out.value = actuatorValue server.state out.actuatorUuid := by
    intro out member
    obtain ⟨_, _, rfl⟩ := List.mem_map.mp member
    rfl
  -- the value an actuator is left with, and when it is the value it had
  have final (uuid : NrmString) (a : Actuator)
      (found : server.state.actuators.lookup uuid = some a) :
      ∃ corrected, (corrected = a.value ↔ a.Steady) ∧
        outcome.server.state.actuators.lookup uuid =
          some (if uuid ∈ control.outputs.map ControlOutput.actuatorUuid
            then a.setValue corrected else a) := by
    have canonical := sound.canonical.actuators.lookup found
    obtain ⟨code, corrected, computed⟩ := canonical.consistent.correctedValue_completes a.value
    refine ⟨corrected, canonical.steady_iff computed, ?_⟩
    rw [← actuatorValue_of_lookup found] at computed
    have left := actuateOutputs_lookup uniform actuated found computed
    rw [state, left, readOutputs_actuators]
  constructor
  · intro kept out member a found
    obtain ⟨corrected, steady, left⟩ := final out.actuatorUuid a found
    obtain ⟨after, same, value⟩ := kept out.actuatorUuid a found
    rw [if_pos (List.mem_map_of_mem member)] at left
    cases left.symm.trans same
    exact steady.mp value
  · intro steady uuid a found
    obtain ⟨corrected, unchanged, left⟩ := final uuid a found
    refine ⟨_, left, ?_⟩
    by_cases named : uuid ∈ control.outputs.map ControlOutput.actuatorUuid
    · obtain ⟨out, member, rfl⟩ := List.mem_map.mp named
      rw [if_pos named]
      exact unchanged.mpr (steady out member a found)
    · rw [if_neg named]

def steadyOps : List Op :=
  [.message (inboundAdd [65] ⟨3, some (.actuator ⟨[97], none, 2, 0, some (.discrete [2, 1])⟩)⟩)]

theorem inactive_tick_steady :
    ∃ server outcome, Reachable ⟨fun _ => 1, fun _ => 0⟩ actuateCallback server ∧
      controlTick ⟨fun _ => 1, fun _ => 0⟩ noEnv { server with user := sampleServer.user } =
        .ok outcome ∧
      ∃ after, outcome.server.state.actuators.lookup [97] = some after ∧ after.value = 2 := by
  obtain ⟨server, outcome, a, ran, ticked, found, u, value⟩ : ∃ server outcome a,
      Data.run (next ⟨fun _ => 1, fun _ => 0⟩ actuateCallback) fresh steadyOps = .ok server ∧
      controlTick ⟨fun _ => 1, fun _ => 0⟩ noEnv { server with user := sampleServer.user } =
        .ok outcome ∧
      server.state.actuators.lookup [97] = some a ∧ a.u = .choices [1, 2] ∧ a.value = 2 :=
    ⟨_, _, _, rfl, rfl, rfl, rfl, rfl⟩
  have reachable : Reachable ⟨fun _ => 1, fun _ => 0⟩ actuateCallback server :=
    ⟨[], fresh, steadyOps, rfl, ran⟩
  have steady : ∀ out ∈ sampleControl.outputs, ∀ a,
      server.state.actuators.lookup out.actuatorUuid = some a → a.Steady := by
    intro out member other same
    rw [List.mem_singleton.mp member] at same
    cases same.symm.trans found
    simp [Actuator.Steady, u, value]
  have kept := ((inactive_tick_iff reachable sampleServer.user rfl rfl noEnv).2 outcome ticked).mpr
    steady [97] a found
  rw [value] at kept
  exact ⟨server, outcome, reachable, ticked, kept⟩

/-- One that holds the default value 0 moves to the choice 1. -/
theorem inactive_tick_moves :
    ∃ server outcome, Reachable ⟨fun _ => 1, fun _ => 0⟩ actuateCallback server ∧
      sampleServer.user.control = some sampleControl ∧ sampleControl.active = false ∧
      controlTick ⟨fun _ => 1, fun _ => 0⟩ noEnv { server with user := sampleServer.user } =
        .ok outcome ∧
      (∃ a, server.state.actuators.lookup [97] = some a ∧ a.value = 0) ∧
      ∃ after, outcome.server.state.actuators.lookup [97] = some after ∧ after.value = 1 :=
  ⟨_, _, ⟨[], fresh, sampleOps, rfl, rfl⟩, rfl, rfl, rfl, ⟨_, rfl, rfl⟩, _, rfl, rfl⟩

end Nrmd

end LibNrm
