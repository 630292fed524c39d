import LibNrm.Actuator.Json
import LibNrm.Client
import LibNrm.Data.Run

namespace LibNrm.Actuator

/-- The tag, the operations and the union denote the same kind, and
`nrm_actuator_discrete_corrected_value` finds the bounds at the ends. -/
inductive Regular (actuator : Actuator) : Prop where
  | discrete (choices : List ℚ) (type : actuator.type = actuatorTypeDiscrete)
      (ops : actuator.ops = .discrete) (u : actuator.u = .choices choices)
      (sorted : choices.Pairwise (· ≤ ·))
  | continuous (min max : ℚ) (type : actuator.type = actuatorTypeContinuous)
      (ops : actuator.ops = .continuous) (u : actuator.u = .limits min max)

inductive Created : Actuator → Prop where
  | discreteCreate (name : List UInt8) : Created (discreteCreate name)
  | continuousCreate (name : List UInt8) : Created (continuousCreate name)
  | createFrommsg {actuator : Actuator} (msg : MsgActuator)
      (created : createFrommsg (some msg) = .ok (some actuator)) : Created actuator

variable {jansson : Jansson}

inductive Write (jansson : Jansson) where
  /-- `nrm_actuator_discrete_set_choices` -/
  | setChoices (choices : List ℚ)
  /-- `nrm_actuator_continuous_set_limits` -/
  | setLimits (min max : ℚ)
  /-- `nrm_actuator_update_frommsg` -/
  | updateFrommsg (msg : MsgActuator)
  /-- `nrm_actuator_from_json` -/
  | fromJson (json : Option jansson.Json)

def write (actuator : Actuator) : Write jansson → Exec Actuator
  | .setChoices choices => do
      let (_, actuator) ← actuator.discreteSetChoices choices
      pure actuator
  | .setLimits min max => .ok (actuator.continuousSetLimits min max).2
  | .updateFrommsg msg => actuator.updateFrommsg (some msg)
  | .fromJson json => do
      let (_, actuator) ← actuator.fromJson jansson json
      pure actuator

/-- The calls of a type are made on actuators of the type, and messages carry the payload their
type announces. -/
def Write.Fits (actuator : Actuator) : Write jansson → Prop
  | .setChoices _ => actuator.type = actuatorTypeDiscrete
  | .setLimits _ _ => actuator.type = actuatorTypeContinuous
  | .updateFrommsg msg => msg.WellFormed
  | .fromJson _ => True

/-- The choices a JSON value would store are in order. -/
def JsonSorted (jansson : Jansson) (subtype : Option jansson.Json) : Prop :=
  ∀ choices values, unpackDiscrete jansson subtype = some choices →
    choices.bind jansson.elements = some values → (values.map jansson.realValue).Pairwise (· ≤ ·)

/-- An unpacked actuator is of the type the actuator has already, and its choices are in
order. -/
def Matches (jansson : Jansson) (unpacked : Unpacked jansson.Json) (actuator : Actuator) :
    Prop :=
  actuatorTypeS2t unpacked.type = actuator.type ∧
    (actuator.type = actuatorTypeDiscrete → JsonSorted jansson unpacked.subtype)

/-- The condition on a message is its type; a message with no choices writes none. A JSON value
that cannot be unpacked writes nothing. -/
def Write.Keeps (actuator : Actuator) : Write jansson → Prop
  | .setChoices _ => True
  | .setLimits _ _ => True
  | .updateFrommsg msg => msg.type = actuator.type ∨ msg.data = some (.discrete [])
  | .fromJson json => ∀ unpacked, unpack jansson json = some unpacked →
      Matches jansson unpacked actuator

theorem Alike.regular {left right : Actuator} (alike : Alike left right)
    (regular : right.Regular) : left.Regular := by
  cases regular with
  | discrete choices type ops u sorted =>
      exact .discrete choices (alike.type.trans type) (alike.ops.trans ops) (alike.u.trans u) sorted
  | continuous min max type ops u =>
      exact .continuous min max (alike.type.trans type) (alike.ops.trans ops) (alike.u.trans u)

theorem discreteSetChoices_regular {actuator : Actuator} (regular : actuator.Regular)
    (type : actuator.type = actuatorTypeDiscrete) (choices : List ℚ) :
    ∃ code set, actuator.discreteSetChoices choices = .ok (code, set) ∧ set.Regular := by
  unfold discreteSetChoices
  split
  · exact ⟨_, actuator, rfl, regular⟩
  · cases regular with
    | discrete old _ ops u sorted =>
        simp only [Actuator.choices, u, Exec.ok_bind]
        exact ⟨_, _, rfl, .discrete _ type ops rfl (List.pairwise_insertionSort (· ≤ ·) choices)⟩
    | continuous min max other ops u => cases type.symm.trans other

theorem continuousSetLimits_regular {actuator : Actuator} (regular : actuator.Regular)
    (type : actuator.type = actuatorTypeContinuous) (min max : ℚ) :
    (actuator.continuousSetLimits min max).2.Regular := by
  cases regular with
  | discrete choices other ops u sorted => cases type.symm.trans other
  | continuous lower upper _ ops u => exact .continuous min max type ops rfl

/-- A message of another type faults, or leaves an actuator of two types. -/
theorem updateFrommsg_regular {actuator : Actuator} (regular : actuator.Regular)
    {msg : MsgActuator} (wellFormed : msg.WellFormed) :
    let keeps := msg.type = actuator.type ∨ msg.data = some (.discrete [])
    (keeps → ∃ next, actuator.updateFrommsg (some msg) = .ok next) ∧
      ∀ next, actuator.updateFrommsg (some msg) = .ok next → (next.Regular ↔ keeps) := by
  intro keeps
  obtain ⟨base, alike, discrete, continuous⟩ := actuator.updateFrommsg_eq msg
  have based : base.Regular := alike.regular regular
  cases wellFormed with
  | discrete choices type data =>
      rw [discrete choices type data]
      by_cases same : msg.type = actuator.type
      · obtain ⟨code, set, stored, kept⟩ := discreteSetChoices_regular based
          (alike.type.trans (same.symm.trans type)) choices
        rw [stored]
        refine ⟨fun _ => ⟨set, rfl⟩, fun next done => ?_⟩
        cases done
        exact ⟨fun _ => .inl same, fun _ => kept⟩
      · by_cases empty : choices = []
        · subst empty
          refine ⟨fun _ => ⟨base, rfl⟩, fun next done => ?_⟩
          cases done
          exact ⟨fun _ => .inr data, fun _ => based⟩
        · have lost : ¬ keeps := by
            rintro (equal | nothing)
            · exact same equal
            · rw [data] at nothing
              simp only [Option.some.injEq, MsgActuatorData.discrete.injEq] at nothing
              exact empty nothing
          cases based with
          | discrete old other ops u sorted =>
              exact absurd (type.trans (other.symm.trans alike.type)) same
          | continuous min max other ops u =>
              -- the union is followed as a vector
              simp only [discreteSetChoices, if_neg empty, Actuator.choices, u, Exec.error_bind]
              refine ⟨fun kept => absurd kept lost, ?_⟩
              intro next done
              cases done
  | continuous lmin lmax type data =>
      rw [continuous lmin lmax type data]
      refine ⟨fun _ => ⟨_, rfl⟩, fun next done => ?_⟩
      cases done
      by_cases same : msg.type = actuator.type
      · have kept := continuousSetLimits_regular based
          (alike.type.trans (same.symm.trans type)) lmin lmax
        exact ⟨fun _ => .inl same, fun _ => kept⟩
      · constructor
        · intro kept
          cases kept with
          | discrete choices _ _ u _ => cases u
          | continuous min max other _ _ =>
              exact .inl (type.trans (other.symm.trans alike.type))
        · rintro (equal | nothing)
          · exact absurd equal same
          · rw [data] at nothing
            cases nothing

/-- The type a JSON value leaves behind is the type it names, or no type. -/
theorem actuatorTypeS2t_stored (string : List UInt8) {type : Int}
    (known : type = actuatorTypeDiscrete ∨ type = actuatorTypeContinuous) :
    actuatorTypeS2t string % 2 ^ 64 = type ↔ actuatorTypeS2t string = type := by
  obtain named | named | named := actuatorTypeS2t_cases string <;> rw [named] <;>
    obtain rfl | rfl := known <;> decide

theorem alike_storeNames (actuator : Actuator) (unpacked : Unpacked jansson.Json) :
    Alike (actuator.storeNames jansson unpacked) actuator := ⟨rfl, rfl, rfl⟩

theorem discreteFromJson_regular {actuator : Actuator} (regular : actuator.Regular)
    (type : actuator.type = actuatorTypeDiscrete) (subtype : Option jansson.Json) :
    ∃ code next, actuator.discreteFromJson jansson subtype = .ok (code, next) ∧
      (next.Regular ↔ JsonSorted jansson subtype) := by
  cases regular with
  | continuous min max other ops u => cases type.symm.trans other
  | discrete old _ ops u sorted =>
      have unchanged : actuator.Regular := .discrete old type ops u sorted
      unfold discreteFromJson vectorDFromJson JsonSorted
      cases unpacked : unpackDiscrete jansson subtype with
      | none => exact ⟨_, _, rfl, fun _ => nofun, fun _ => unchanged⟩
      | some choices =>
          cases elements : choices.bind jansson.elements with
          | none =>
              simp only [elements]
              refine ⟨_, _, rfl, ?_, fun _ => unchanged⟩
              intro _ other values same array
              cases same
              cases elements.symm.trans array
          | some values =>
              simp only [elements, Actuator.choices, u, Exec.ok_bind]
              refine ⟨_, _, rfl, ?_, ?_⟩
              · intro kept other items same array
                cases same
                cases elements.symm.trans array
                cases kept with
                | discrete choices _ _ stored ordered =>
                    cases stored
                    exact ordered
                | continuous min max _ _ stored => cases stored
              · intro ordered
                exact .discrete _ type ops rfl (ordered choices values rfl elements)

theorem discreteFromJson_frame {actuator next : Actuator} {subtype : Option jansson.Json} {code : Int}
    (done : actuator.discreteFromJson jansson subtype = .ok (code, next)) :
    next.type = actuator.type ∧ next.ops = actuator.ops := by
  unfold discreteFromJson vectorDFromJson at done
  split at done
  · cases done
    exact ⟨rfl, rfl⟩
  · obtain ⟨⟨_, set⟩, stored, rest⟩ := Exec.bind_eq_ok.mp done
    cases rest
    split at stored
    · cases stored
      exact ⟨rfl, rfl⟩
    · obtain ⟨_, _, wrote⟩ := Exec.bind_eq_ok.mp stored
      cases wrote
      exact ⟨rfl, rfl⟩

theorem Regular.type_of_ops {left right : Actuator} (first : left.Regular) (second : right.Regular)
    (ops : left.ops = right.ops) : left.type = right.type := by
  cases first with
  | discrete choices type isOps _ _ =>
      cases second with
      | discrete others other _ _ _ => exact type.trans other.symm
      | continuous min max _ otherOps _ => cases isOps.symm.trans (ops.trans otherOps)
  | continuous min max type isOps _ =>
      cases second with
      | discrete choices _ otherOps _ _ => cases isOps.symm.trans (ops.trans otherOps)
      | continuous lower upper other _ _ => exact type.trans other.symm

theorem Regular.known {actuator : Actuator} (regular : actuator.Regular) :
    actuator.type = actuatorTypeDiscrete ∨ actuator.type = actuatorTypeContinuous := by
  cases regular with
  | discrete choices type ops u sorted => exact .inl type
  | continuous min max type ops u => exact .inr type

theorem storeType_of_matching {actuator : Actuator} (regular : actuator.Regular)
    {unpacked : Unpacked jansson.Json}
    (same : actuatorTypeS2t unpacked.type = actuator.type) :
    ∃ code next, actuator.storeType jansson unpacked = .ok (code, next) ∧
      (next.Regular ↔ Matches jansson unpacked actuator) := by
  have stored : actuatorTypeS2t unpacked.type % 2 ^ 64 = actuator.type :=
    (actuatorTypeS2t_stored unpacked.type regular.known).mpr same
  simp only [storeType, stored]
  split
  · rename_i discrete
    obtain ⟨code, next, done, sorted⟩ := discreteFromJson_regular regular discrete unpacked.subtype
    refine ⟨code, next, done, sorted.trans ?_⟩
    exact ⟨fun ordered => ⟨same, fun _ => ordered⟩, fun matching => matching.2 discrete⟩
  · rename_i other
    refine ⟨_, actuator, rfl, fun _ => ⟨same, fun discrete => absurd discrete other⟩, fun _ => regular⟩

/-- A JSON value of another type leaves its type behind, whatever it returns. -/
theorem storeType_of_other {actuator next : Actuator} (regular : actuator.Regular)
    {unpacked : Unpacked jansson.Json} {code : Int}
    (other : actuatorTypeS2t unpacked.type ≠ actuator.type)
    (done : actuator.storeType jansson unpacked = .ok (code, next)) : ¬ next.Regular := by
  have frame : next.type = actuatorTypeS2t unpacked.type % 2 ^ 64 ∧ next.ops = actuator.ops := by
    simp only [storeType] at done
    split at done
    · exact discreteFromJson_frame done
    · cases done
      exact ⟨rfl, rfl⟩
  intro kept
  have type := kept.type_of_ops regular frame.2
  have stored := actuatorTypeS2t_stored unpacked.type regular.known
  exact other (stored.mp (frame.1.symm.trans type))

theorem fromJson_regular {actuator : Actuator} (regular : actuator.Regular)
    (json : Option jansson.Json) :
    let keeps := Write.Keeps actuator (.fromJson json)
    (keeps → ∃ code next, actuator.fromJson jansson json = .ok (code, next)) ∧
      ∀ code next, actuator.fromJson jansson json = .ok (code, next) → (next.Regular ↔ keeps) := by
  intro keeps
  unfold fromJson
  split
  · rename_i failed
    have held : keeps := by
      intro unpacked done
      cases failed.symm.trans done
    refine ⟨fun _ => ⟨_, _, rfl⟩, fun code next done => ?_⟩
    cases done
    exact ⟨fun _ => held, fun _ => regular⟩
  · rename_i unpacked succeeded
    have alike := alike_storeNames actuator unpacked
    generalize actuator.storeNames jansson unpacked = base at alike
    have based : base.Regular := alike.regular regular
    have keeps_iff : keeps ↔ Matches jansson unpacked base := by
      unfold Matches
      rw [alike.type]
      constructor
      · intro held
        exact held unpacked succeeded
      · intro held other done
        cases succeeded.symm.trans done
        exact held
    rw [keeps_iff]
    by_cases same : actuatorTypeS2t unpacked.type = base.type
    · obtain ⟨code, next, done, matching⟩ := storeType_of_matching based same
      rw [done]
      refine ⟨fun _ => ⟨code, next, rfl⟩, fun _ _ result => ?_⟩
      cases result
      exact matching
    · refine ⟨fun held => absurd held.1 same, fun code next done => ?_⟩
      exact ⟨fun kept => absurd kept (storeType_of_other based same done),
        fun held => absurd held.1 same⟩

theorem Created.regular {actuator : Actuator} (created : Created actuator) : actuator.Regular := by
  cases created with
  | discreteCreate name => exact .discrete [] rfl rfl rfl .nil
  | continuousCreate name => exact .continuous 0 0 rfl rfl rfl
  | createFrommsg msg created =>
      have wellFormed := wellFormed_of_createFrommsg created
      rw [wellFormed.createFrommsg] at created
      cases created
      cases wellFormed with
      | discrete choices type data =>
          simp only [MsgActuator.decoded, data]
          exact .discrete _ rfl rfl rfl (List.pairwise_insertionSort (· ≤ ·) choices)
      | continuous lmin lmax type data =>
          simp only [MsgActuator.decoded, data]
          exact .continuous lmin lmax rfl rfl rfl

theorem write_regular {actuator : Actuator} (regular : actuator.Regular) {call : Write jansson}
    (fits : call.Fits actuator) :
    (call.Keeps actuator → ∃ next, actuator.write call = .ok next) ∧
      ∀ next, actuator.write call = .ok next → (next.Regular ↔ call.Keeps actuator) := by
  cases call with
  | setChoices choices =>
      obtain ⟨code, set, stored, kept⟩ := discreteSetChoices_regular regular fits choices
      simp only [write, stored, Exec.ok_bind]
      refine ⟨fun _ => ⟨set, rfl⟩, fun next done => ?_⟩
      cases done
      exact ⟨fun _ => trivial, fun _ => kept⟩
  | setLimits min max =>
      refine ⟨fun _ => ⟨_, rfl⟩, fun next done => ?_⟩
      cases done
      exact ⟨fun _ => trivial, fun _ => continuousSetLimits_regular regular fits min max⟩
  | updateFrommsg msg => exact updateFrommsg_regular regular fits
  | fromJson json =>
      obtain ⟨completes, kept⟩ := fromJson_regular regular json
      constructor
      · intro keeps
        obtain ⟨code, next, done⟩ := completes keeps
        exact ⟨next, by simp only [write, done, Exec.ok_bind, Exec.pure_eq_ok]⟩
      · intro next done
        obtain ⟨⟨code, stored⟩, read, rest⟩ := Exec.bind_eq_ok.mp done
        cases rest
        exact kept code next read

def Careful (before : Actuator) (call : Write jansson) (after : Actuator) : Prop :=
  (call.Fits before ∧ call.Keeps before) ∧ before.write call = .ok after

/-- Careful calls complete and only meet regular actuators, and a call that is not
careful leaves an actuator that is not. -/
theorem writes_regular {actuator reached : Actuator} (created : Created actuator)
    {calls : List (Write jansson)} (ran : Data.Run Careful actuator calls reached) :
    reached.Regular ∧ ∀ call : Write jansson, call.Fits reached →
      (call.Keeps reached → ∃ next, reached.write call = .ok next) ∧
        ∀ next, reached.write call = .ok next → (next.Regular ↔ call.Keeps reached) := by
  have regular : reached.Regular := by
    apply ran.invariant_of created.regular
    intro before call after holds condition done
    exact ((write_regular holds condition.1).2 after done).mpr condition.2
  exact ⟨regular, fun call fits => write_regular regular fits⟩

/-- A discrete actuator with choices. -/
def discreteTree (choices : List ℚ) : JsonTree :=
  .object
    [("uuid", .string [97]), ("type", .string [68, 73, 83, 67, 82, 69, 84, 69]),
      ("subtype", .object [("choices", .array (choices.map .real))])]

/-- Choices out of order through the setter, and in order through JSON. -/
theorem writes_regular_sample :
    let calls : List (Write trees) :=
      [.setChoices [2, 1], .fromJson (some (discreteTree [1, 2, 3]))]
    ∃ reached, Data.Run Careful (discreteCreate [97]) calls reached ∧
      reached.u = .choices [1, 2, 3] ∧ reached.Regular ∧
      ∀ call : Write trees, call.Fits reached →
        (call.Keeps reached → ∃ next, reached.write call = .ok next) ∧
          ∀ next, reached.write call = .ok next → (next.Regular ↔ call.Keeps reached) := by
  intro calls
  have ran : Data.Run Careful (discreteCreate [97]) calls
      { discreteCreate [97] with u := .choices [1, 2, 3] } := by
    refine .snoc (.snoc (.nil _) ⟨⟨rfl, trivial⟩, rfl⟩) ⟨⟨trivial, ?_⟩, rfl⟩
    intro unpacked done
    cases done
    refine ⟨by decide, fun _ choices values found array => ?_⟩
    cases found
    cases array
    decide
  exact ⟨_, ran, rfl, writes_regular (.discreteCreate [97]) ran⟩

/-- Choices out of order through JSON: the greatest of them is corrected to the last. -/
theorem json_choices_unsorted :
    let call : Write trees := .fromJson (some (discreteTree [2, 1]))
    call.Fits (discreteCreate [97]) ∧
      ∃ next, (discreteCreate [97]).write call = .ok next ∧ ¬ next.Regular ∧
        next.correctedValue 2 = .ok (0, 1) := by
  intro call
  refine ⟨trivial, { discreteCreate [97] with u := .choices [2, 1] }, rfl, ?_, by decide⟩
  intro regular
  cases regular with
  | discrete choices type ops u sorted =>
      cases u
      revert sorted
      decide
  | continuous min max type ops u => cases u

end LibNrm.Actuator
