import LibNrm.Actuator.Json
import LibNrm.Client.Codecs
import LibNrm.Scope.Json

namespace LibNrm

def actuatorTypeMax : Int := 2

/-- The text of a type that is not in the table. -/
def actuatorTypeUnknown : List UInt8 := [85, 78, 75, 78, 79, 87, 78]

/-- `nrm_actuator_type_t2s` -/
def actuatorTypeT2s (type : Int) : List UInt8 :=
  if type < 0 ∨ actuatorTypeMax < type then actuatorTypeUnknown
  else
    match actuatorTypeTable.find? fun entry => entry.1 = type with
    | some entry => entry.2
    | none => actuatorTypeUnknown

/-- `nrm_uuid_to_json` -/
def uuidToJson (jansson : Jansson) (uuid : Option NrmString) : Option jansson.Json :=
  uuid.bind jansson.string

namespace Actuator

variable (jansson : Jansson)

/-- `nrm_vector_d_to_json` -/
def vectorDToJson (vector : List ℚ) : jansson.Json := jansson.array (vector.map jansson.real)

/-- `nrm_actuator_discrete_to_json`, which packs by `"{s:o?}"`. -/
def discreteToJson (actuator : Actuator) : Exec (Option jansson.Json) := do
  let choices ← actuator.choices
  pure (jansson.packObject [("choices", jansson.orNull (some (vectorDToJson jansson choices)))])

/-- The members of an actuator, packed by `"{s:s, s:o?, s:f, s:s, s:o?}"`. -/
def pack (actuator : Actuator) (sub : Option jansson.Json) : Option jansson.Json :=
  jansson.packObject
    [("uuid", jansson.string actuator.uuid),
      ("clientid", jansson.orNull (uuidToJson jansson actuator.clientid)),
      ("value", some (jansson.real actuator.value)),
      ("type", jansson.string (actuatorTypeT2s actuator.type)),
      ("subtype", jansson.orNull sub)]

/-- `nrm_actuator_to_json` -/
def toJson (actuator : Actuator) : Exec (Option jansson.Json) := do
  let sub ← if actuator.type = actuatorTypeDiscrete then actuator.discreteToJson jansson
    else pure none
  pure (actuator.pack jansson sub)

/-- A new actuator of the kind of another one. -/
def freshLike (actuator : Actuator) (name : List UInt8) : Actuator :=
  match actuator.ops with
  | .discrete => discreteCreate name
  | .continuous => continuousCreate name

/-- The JSON of an actuator makes a new one of its kind equal to it. -/
def Survives (actuator : Actuator) (name : List UInt8) : Prop :=
  ∃ json result, actuator.toJson jansson = .ok json ∧
    (actuator.freshLike name).fromJson jansson json = .ok (0, result) ∧
    result.uuid = actuator.uuid ∧ result.type = actuator.type ∧
    result.clientid = actuator.clientid ∧ result.value = actuator.value ∧ result.u = actuator.u

variable {jansson : Jansson}

/-- The member `clientid` is always there, and is never a `char *`. -/
def readClientid (jansson : Jansson) (clientid : Option NrmString) : NrmString :=
  stringFromchar (jansson.chars ((uuidToJson jansson clientid).getD jansson.null))

theorem readClientid_of_valid (documented : jansson.Documented) (typeFirst : jansson.TypeFirst)
    {clientid : NrmString} (valid : ValidUtf8 (stringFromchar clientid)) :
    readClientid jansson (some clientid) = [2] := by
  obtain ⟨json, packed, -⟩ := documented.string_valid clientid valid
  rw [readClientid, uuidToJson, Option.bind_some, packed, Option.getD_some,
    typeFirst.chars_string clientid json packed]

theorem readClientid_of_invalid (documented : jansson.Documented) (typeFirst : jansson.TypeFirst)
    {clientid : NrmString} (invalid : ¬ ValidUtf8 (stringFromchar clientid)) :
    readClientid jansson (some clientid) = [7] := by
  rw [readClientid, uuidToJson, Option.bind_some, documented.string_invalid clientid invalid,
    Option.getD_none, typeFirst.chars_null]

theorem readClientid_iff (documented : jansson.Documented) (typeFirst : jansson.TypeFirst)
    (clientid : Option NrmString) : some (readClientid jansson clientid) = clientid ↔ clientid = some [2] := by
  cases clientid with
  | none => simp
  | some clientid =>
      by_cases valid : ValidUtf8 (stringFromchar clientid)
      · rw [readClientid_of_valid documented typeFirst valid]
        exact eq_comm
      · have string : clientid ≠ [7] := by
          intro same
          subst same
          exact valid (by decide +kernel)
        have other : clientid ≠ [2] := by
          intro same
          subst same
          exact valid (by decide +kernel)
        rw [readClientid_of_invalid documented typeFirst valid]
        simp [string.symm, other]

theorem validUtf8_actuatorTypeT2s (type : Int) :
    ValidUtf8 (stringFromchar (actuatorTypeT2s type)) := by
  have unknown : ValidUtf8 (stringFromchar actuatorTypeUnknown) := by decide +kernel
  have known : ∀ entry ∈ actuatorTypeTable, ValidUtf8 (stringFromchar entry.2) := by decide +kernel
  unfold actuatorTypeT2s
  split
  · exact unknown
  · split
    · rename_i entry found
      exact known entry (List.mem_of_find?_eq_some found)
    · exact unknown

theorem unpack_pack (documented : jansson.Documented) {actuator : Actuator}
    (valid : ValidUtf8 (stringFromchar actuator.uuid)) (sub : Option jansson.Json) :
    ∃ json, actuator.pack jansson sub = some json ∧ unpack jansson (some json) = some
      ⟨stringFromchar actuator.uuid,
        some ((uuidToJson jansson actuator.clientid).getD jansson.null),
        stringFromchar (actuatorTypeT2s actuator.type), some actuator.value,
        some (sub.getD jansson.null)⟩ := by
  obtain ⟨name, packedName, readName⟩ := documented.string_valid actuator.uuid valid
  obtain ⟨type, packedType, readType⟩ :=
    documented.string_valid _ (validUtf8_actuatorTypeT2s actuator.type)
  refine ⟨jansson.object
    [("uuid", name), ("clientid", (uuidToJson jansson actuator.clientid).getD jansson.null),
      ("value", jansson.real actuator.value), ("type", type), ("subtype", sub.getD jansson.null)],
    ?_, ?_⟩
  · simp [pack, Jansson.packObject, Jansson.orNull, packedName, packedType]
  · rw [unpack, Option.bind_some, documented.members_object _ (by simp)]
    simp [Jansson.unpackOptional, List.lookup_cons, readName, readType, documented.realOf_real]

theorem pack_of_invalid (documented : jansson.Documented) {actuator : Actuator}
    (invalid : ¬ ValidUtf8 (stringFromchar actuator.uuid)) (sub : Option jansson.Json) :
    actuator.pack jansson sub = none := by
  simp [pack, Jansson.packObject, documented.string_invalid actuator.uuid invalid]

theorem toJson_of_discrete (documented : jansson.Documented) {actuator : Actuator}
    {choices : List ℚ} (type : actuator.type = actuatorTypeDiscrete)
    (u : actuator.u = .choices choices) :
    ∃ sub, unpackDiscrete jansson (some sub) = some (some (vectorDToJson jansson choices)) ∧
      actuator.toJson jansson = .ok (actuator.pack jansson (some sub)) := by
  refine ⟨jansson.object [("choices", vectorDToJson jansson choices)], ?_, ?_⟩
  · rw [unpackDiscrete, Option.bind_some, documented.members_object _ (by simp)]
    simp [List.lookup_cons]
  · rw [toJson, if_pos type, discreteToJson, Actuator.choices, u]
    simp [Jansson.packObject, Jansson.orNull]

/-- A discrete actuator with a valid name comes back with all but its client id. -/
theorem fromJson_toJson_discrete (documented : jansson.Documented) {actuator : Actuator}
    {choices : List ℚ} (type : actuator.type = actuatorTypeDiscrete)
    (u : actuator.u = .choices choices) (free : NulFree actuator.uuid)
    (valid : ValidUtf8 actuator.uuid) (name : List UInt8) :
    ∃ json, actuator.toJson jansson = .ok json ∧
      (discreteCreate name).fromJson jansson json = .ok (0,
        { discreteCreate name with
          uuid := actuator.uuid
          clientid := some (readClientid jansson actuator.clientid)
          value := actuator.value
          u := .choices choices }) := by
  have uuid := stringFromchar_of_nulFree free
  obtain ⟨sub, choicesRead, encoded⟩ := toJson_of_discrete documented type u
  obtain ⟨json, packed, unpacked⟩ := unpack_pack documented (by rwa [uuid]) (some sub)
  refine ⟨some json, by rw [encoded, packed], ?_⟩
  have elements : jansson.elements (vectorDToJson jansson choices) =
      some (choices.map jansson.real) := documented.elements_array _
  have values : (choices.map jansson.real).map jansson.realValue = choices := by
    rw [List.map_map]
    refine List.map_id'' (fun value => ?_) choices
    simp only [Function.comp_apply, Jansson.realValue, documented.realOf_real, Option.getD_some]
  have named : stringFromchar (actuatorTypeT2s actuatorTypeDiscrete) =
      actuatorTypeT2s actuatorTypeDiscrete := by decide
  have known : actuatorTypeS2t (actuatorTypeT2s actuatorTypeDiscrete) % 2 ^ 64 =
      actuatorTypeDiscrete := by decide
  rw [fromJson, unpacked]
  simp only [storeNames, storeType, type, named, known, ↓reduceIte, Option.getD_some,
    discreteFromJson, choicesRead, vectorDFromJson, Option.bind_some, elements, values, uuid]
  rfl

theorem fromJson_null (target : Actuator) :
    target.fromJson jansson none = .ok (-nrmEinval, target) := rfl

theorem fromJson_of_other {json : Option jansson.Json} {unpacked : Unpacked jansson.Json}
    (read : unpack jansson json = some unpacked)
    (other : actuatorTypeS2t unpacked.type % 2 ^ 64 ≠ actuatorTypeDiscrete) (target : Actuator) :
    ∃ result, target.fromJson jansson json = .ok (-nrmEinval, result) := by
  rw [fromJson, read]
  simp only [storeType, if_neg other]
  exact ⟨_, rfl⟩

theorem not_survives_of_refused {actuator : Actuator} {name : List UInt8}
    {json : Option jansson.Json} (encoded : actuator.toJson jansson = .ok json)
    (refused : ∃ result, (actuator.freshLike name).fromJson jansson json =
      .ok (-nrmEinval, result)) : ¬ actuator.Survives jansson name := by
  intro survives
  obtain ⟨other, back, again, accepted, -⟩ := survives
  obtain ⟨result, refused⟩ := refused
  cases encoded.symm.trans again
  have codes := refused.symm.trans accepted
  simp [nrmEinval] at codes

theorem not_survives_of_continuous (documented : jansson.Documented) (actuator : Actuator)
    (type : actuator.type = actuatorTypeContinuous) (name : List UInt8) :
    ¬ actuator.Survives jansson name := by
  have other : actuator.type ≠ actuatorTypeDiscrete := by
    rw [type]
    decide
  have encoded : actuator.toJson jansson = .ok (actuator.pack jansson none) := by
    rw [toJson, if_neg other]
    rfl
  apply not_survives_of_refused encoded
  by_cases valid : ValidUtf8 (stringFromchar actuator.uuid)
  · obtain ⟨json, packed, unpacked⟩ := unpack_pack documented valid none
    rw [packed]
    have other : actuatorTypeS2t (stringFromchar (actuatorTypeT2s actuator.type)) % 2 ^ 64 ≠
        actuatorTypeDiscrete := by
      rw [type]
      decide
    exact fromJson_of_other unpacked other _
  · rw [pack_of_invalid documented valid]
    exact ⟨_, fromJson_null _⟩

theorem not_survives_of_invalid (documented : jansson.Documented) (actuator : Actuator)
    {choices : List ℚ} (type : actuator.type = actuatorTypeDiscrete)
    (u : actuator.u = .choices choices) (invalid : ¬ ValidUtf8 (stringFromchar actuator.uuid))
    (name : List UInt8) : ¬ actuator.Survives jansson name := by
  obtain ⟨sub, -, encoded⟩ := toJson_of_discrete documented type u
  rw [pack_of_invalid documented invalid] at encoded
  exact not_survives_of_refused encoded ⟨_, fromJson_null _⟩

theorem survives_iff_clientid (documented : jansson.Documented) (typeFirst : jansson.TypeFirst)
    (actuator : Actuator) {choices : List ℚ} (type : actuator.type = actuatorTypeDiscrete)
    (ops : actuator.ops = .discrete) (u : actuator.u = .choices choices)
    (free : NulFree actuator.uuid) (valid : ValidUtf8 actuator.uuid) (name : List UInt8) :
    actuator.Survives jansson name ↔ actuator.clientid = some [2] := by
  obtain ⟨json, encoded, decoded⟩ := fromJson_toJson_discrete documented type u free valid name
  have fresh : actuator.freshLike name = discreteCreate name := by rw [freshLike, ops]
  rw [← readClientid_iff documented typeFirst actuator.clientid, Survives, fresh]
  constructor
  · intro survives
    obtain ⟨other, result, again, accepted, -, -, clientid, -⟩ := survives
    cases encoded.symm.trans again
    cases decoded.symm.trans accepted
    exact clientid
  · intro clientid
    exact ⟨json, _, encoded, decoded, rfl, type.symm, clientid, rfl, u.symm⟩

/-- Whatever was built through the public API, with whatever client id: it survives JSON
exactly if it is a discrete actuator whose name is UTF-8 and whose client id is the byte
that a jansson string begins with. -/
theorem actuators_survive_iff (jansson : Jansson) (documented : jansson.Documented)
    (typeFirst : jansson.TypeFirst) (actuator : Actuator) (built : actuator.Built)
    (clientid : Option NrmString) (name : List UInt8) :
    Survives jansson { actuator with clientid := clientid } name ↔
      actuator.type = actuatorTypeDiscrete ∧ ValidUtf8 actuator.uuid ∧ clientid = some [2] := by
  have canonical := built.canonical
  have free := canonical.uuid
  cases canonical.consistent with
  | continuous min max type ops u =>
      have lost := not_survives_of_continuous documented { actuator with clientid := clientid } type
        name
      constructor
      · exact fun survives => absurd survives lost
      · intro condition
        obtain ⟨discrete, -⟩ := condition
        cases discrete.symm.trans type
  | discrete choices type ops u =>
      by_cases valid : ValidUtf8 actuator.uuid
      · rw [survives_iff_clientid documented typeFirst { actuator with clientid := clientid } type ops
          u free valid name]
        exact ⟨fun same => ⟨type, valid, same⟩, fun condition => condition.2.2⟩
      · have invalid : ¬ ValidUtf8 (stringFromchar actuator.uuid) := by
          rwa [stringFromchar_of_nulFree free]
        have lost := not_survives_of_invalid documented { actuator with clientid := clientid } type u
          invalid name
        exact ⟨fun survives => absurd survives lost, fun condition => absurd condition.2.1 valid⟩

/-- An actuator of choices 1 and 3 set to 3, by a client whose id is the byte 2. -/
theorem actuators_survive_byte :
    Survives trees
      { (discreteCreate [97]) with value := 3, u := .choices [1, 3], clientid := some [2] } [98] := by
  have set : (discreteCreate [97]).discreteSetChoices [3, 1] =
      .ok (0, { (discreteCreate [97]) with u := .choices [1, 3] }) := by decide
  have built : Built { (discreteCreate [97]) with value := 3, u := .choices [1, 3] } :=
    .setValue 3 (.setChoices [3, 1] (.discreteCreate [97]) rfl set)
  exact (actuators_survive_iff trees trees_documented trees_typeFirst _ built (some [2]) [98]).mpr
    ⟨rfl, by decide +kernel, rfl⟩

/-- Without a client id an actuator gets one, with another it gets a wrong one, and a
continuous actuator is refused. -/
theorem json_loses_actuators :
    trees.Documented ∧ trees.TypeFirst ∧
    (discreteCreate [97]).Built ∧ ¬ (discreteCreate [97]).Survives trees [98] ∧
    ¬ ((discreteCreate [97]).setClientid [99]).Survives trees [98] ∧
    (continuousCreate [97]).Built ∧ ¬ (continuousCreate [97]).Survives trees [98] := by
  have lost (clientid : Option NrmString) (other : clientid ≠ some [2]) :
      ¬ Survives trees { discreteCreate [97] with clientid := clientid } [98] := by
    have valid : ValidUtf8 (stringFromchar [97]) := by decide +kernel
    rw [survives_iff_clientid trees_documented trees_typeFirst _ rfl rfl rfl
      (stringFromchar_nulFree [97]) valid [98]]
    exact other
  exact ⟨trees_documented, trees_typeFirst, .discreteCreate [97], lost none (by decide),
    lost (some [99]) (by decide), .continuousCreate [97],
    not_survives_of_continuous trees_documented _ rfl [98]⟩

end Actuator

end LibNrm
