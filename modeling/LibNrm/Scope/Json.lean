import LibNrm.Objects
import LibNrm.Utils.Jansson
import Mathlib.Data.List.Range

namespace LibNrm

namespace Bitmap

variable (jansson : Jansson)

/-- `nrm_bitmap_to_json`: the loop of `nrm_bitmap_to_array` again. -/
def toJson (map : Bitmap) : jansson.Json :=
  jansson.array ((toArrayFrom map map.nset bitmapMax 0 0).map jansson.integer)

/-- `nrm_bitmap_from_json`, with its return code. -/
def fromJson (map : Bitmap) (json : Option jansson.Json) : Int × Bitmap :=
  match json.bind jansson.elements with
  | none => (-nrmEinval, map)
  | some values =>
      (0, values.foldl (fun map value =>
        (map.set (unsignedInt (jansson.integerValue value))).2) reset)

end Bitmap

/-- `nrm_scope_to_json`, which packs by `"{s:s*, s:o, s:o, s:o}"`. -/
def scopeToJson (jansson : Jansson) (scope : Scope) : Option jansson.Json :=
  jansson.packObject
    [("uuid", jansson.string scope.uuid), ("cpu", some (scope.cpu.toJson jansson)),
      ("numa", some (scope.numa.toJson jansson)), ("gpu", some (scope.gpu.toJson jansson))]

/-- The targets of a scope's `json_unpack_ex`, NULL where the key is missing. -/
structure UnpackedScope (Json : Type) where
  uuid : Option (List UInt8)
  cpu : Option Json
  numa : Option Json
  gpu : Option Json

/-- `json_unpack_ex` by `"{s?:s, s?:o, s?:o, s?:o}"`. -/
def unpackScope (jansson : Jansson) (json : Option jansson.Json) :
    Option (UnpackedScope jansson.Json) := do
  let get ← json.bind jansson.members
  let uuid ← Jansson.unpackOptional jansson.stringOf (get "uuid")
  pure ⟨uuid, get "cpu", get "numa", get "gpu"⟩

/-- `nrm_scope_from_json`, with its return code; those of the three maps are dropped. -/
def scopeFromJson (jansson : Jansson) (scope : Scope) (json : Option jansson.Json) : Int × Scope :=
  match unpackScope jansson json with
  | none => (-nrmEinval, scope)
  | some unpacked =>
      (0,
        { uuid := match unpacked.uuid with
            | some uuid => stringFromchar uuid
            | none => scope.uuid
          cpu := (scope.cpu.fromJson jansson unpacked.cpu).2
          numa := (scope.numa.fromJson jansson unpacked.numa).2
          gpu := (scope.gpu.fromJson jansson unpacked.gpu).2 })

namespace Bitmap

theorem mem_toArray (map : Bitmap) (item : Int) :
    item ∈ map.toArray ↔ ∃ i : Nat, item = i ∧ map.bit i = true := by
  rw [toArray_eq_filter]
  simp only [List.mem_map, List.mem_filter, List.mem_range]
  constructor
  · rintro ⟨i, ⟨_, isSet⟩, rfl⟩
    exact ⟨i, rfl, isSet⟩
  · rintro ⟨i, rfl, isSet⟩
    exact ⟨i, ⟨bit_inside isSet, isSet⟩, rfl⟩

theorem toArray_increasing (map : Bitmap) : map.toArray.Pairwise (· < ·) := by
  rw [toArray_eq_filter, List.pairwise_map]
  apply List.Pairwise.sublist List.filter_sublist
  exact List.pairwise_lt_range.imp fun less => Int.ofNat_lt.mpr less

theorem toArray_length (map : Bitmap) : map.toArray.length = map.nset := by
  rw [toArray_eq_filter, List.length_map, length_filter_bit]

/-- On a 32-bit signed item the conversion to `unsigned int` keeps what is in
range and sends the negative items out of range. -/
theorem unsignedInt_of_int32 {item : Int} (lower : -(2 ^ 31) ≤ item) (upper : item < 2 ^ 31)
    {i : Nat} (inside : i < bitmapMax) : unsignedInt item = i ↔ item = i := by
  unfold bitmapMax at inside
  unfold unsignedInt
  omega

theorem mem_toArray_fromArray {items : List Int}
    (int32 : ∀ item ∈ items, -(2 ^ 31) ≤ item ∧ item < 2 ^ 31) (item : Int) :
    item ∈ (fromArray items).toArray ↔ item ∈ items ∧ 0 ≤ item ∧ item < 2048 := by
  rw [mem_toArray]
  constructor
  · rintro ⟨i, rfl, isSet⟩
    have inside := bit_inside isSet
    obtain ⟨original, member, converted⟩ := (bit_fromArray items inside).mp isSet
    have bounds := int32 original member
    have same := (unsignedInt_of_int32 bounds.1 bounds.2 inside).mp converted
    unfold bitmapMax at inside
    exact ⟨same ▸ member, by omega, by omega⟩
  · rintro ⟨member, nonneg, small⟩
    have bounds := int32 item member
    have inside : item.toNat < bitmapMax := by
      unfold bitmapMax
      omega
    have whole : item = item.toNat := by omega
    refine ⟨item.toNat, whole, (bit_fromArray items inside).mpr ⟨item, member, ?_⟩⟩
    exact (unsignedInt_of_int32 bounds.1 bounds.2 inside).mpr whole

variable {jansson : Jansson}

theorem fromJson_of_elements {json : jansson.Json} {values : List jansson.Json}
    (isArray : jansson.elements json = some values) (map : Bitmap) :
    map.fromJson jansson (some json) = (0, fromArray (values.map jansson.integerValue)) := by
  simp only [fromJson, Option.bind_some, isArray, fromArray, List.foldl_map]

theorem fromJson_toJson (documented : jansson.Documented) (map target : Bitmap) :
    target.fromJson jansson (some (map.toJson jansson)) = (0, map) := by
  have read : (map.toArray.map jansson.integer).map jansson.integerValue = map.toArray := by
    rw [List.map_map]
    refine (List.map_congr_left fun item member => ?_).trans (List.map_id _)
    obtain ⟨i, rfl, isSet⟩ := (mem_toArray map item).mp member
    have inside := bit_inside isSet
    unfold bitmapMax at inside
    have number := documented.integerOf_integer i (by omega) (by omega)
    simp only [Function.comp_apply, Jansson.integerValue, number, Option.getD_some, id_eq]
  have loop : toArrayFrom map map.nset bitmapMax 0 0 = map.toArray := by
    rw [toArrayFrom_nset, toArray_eq_filter]
  rw [toJson, loop, fromJson_of_elements (documented.elements_array _), read, fromArray_toArray]

end Bitmap

theorem scopeCmp_eq_zero_iff (one two : Scope) :
    scopeCmp one two = 0 ↔ one.cpu = two.cpu ∧ one.numa = two.numa ∧ one.gpu = two.gpu := by
  simp only [scopeCmp, ← Bitmap.cmp_eq_zero_iff]
  by_cases cpu : one.cpu.cmp two.cpu = 0
  · by_cases numa : one.numa.cmp two.numa = 0
    · by_cases gpu : one.gpu.cmp two.gpu = 0
      · simp [cpu, numa, gpu]
      · simp [cpu, numa, gpu]
    · simp [cpu, numa]
  · simp [cpu]

theorem unpackScope_scopeToJson {jansson : Jansson} (documented : jansson.Documented)
    {scope : Scope} (valid : ValidUtf8 (stringFromchar scope.uuid)) :
    ∃ json, scopeToJson jansson scope = some json ∧
      unpackScope jansson (some json) = some
        ⟨some (stringFromchar scope.uuid), some (scope.cpu.toJson jansson),
          some (scope.numa.toJson jansson), some (scope.gpu.toJson jansson)⟩ := by
  obtain ⟨name, packed, read⟩ := documented.string_valid scope.uuid valid
  refine ⟨jansson.object
    [("uuid", name), ("cpu", scope.cpu.toJson jansson), ("numa", scope.numa.toJson jansson),
      ("gpu", scope.gpu.toJson jansson)], ?_, ?_⟩
  · simp [scopeToJson, Jansson.packObject, packed]
  · rw [unpackScope, Option.bind_some, documented.members_object _ (by simp)]
    simp [Jansson.unpackOptional, List.lookup_cons, read]

theorem scopeFromJson_toJson {jansson : Jansson} (documented : jansson.Documented)
    {scope : Scope} (free : NulFree scope.uuid) (valid : ValidUtf8 scope.uuid) (target : Scope) :
    ∃ json, scopeToJson jansson scope = some json ∧
      scopeFromJson jansson target (some json) = (0, scope) := by
  have uuid := stringFromchar_of_nulFree free
  obtain ⟨json, packed, unpacked⟩ := unpackScope_scopeToJson documented (uuid.symm ▸ valid)
  refine ⟨json, packed, ?_⟩
  simp only [scopeFromJson, unpacked, Bitmap.fromJson_toJson documented, uuid]

theorem scopeToJson_of_invalid {jansson : Jansson} (documented : jansson.Documented) {scope : Scope}
    (invalid : ¬ ValidUtf8 (stringFromchar scope.uuid)) : scopeToJson jansson scope = none := by
  simp [scopeToJson, Jansson.packObject, documented.string_invalid scope.uuid invalid]

/-- Both encodings of a resource set give it back whatever the target held, the
array lists it in increasing order, and a scope with a valid name survives JSON. -/
theorem resource_sets_survive (jansson : Jansson) (documented : jansson.Documented) :
    (∀ map : Bitmap, Bitmap.fromArray map.toArray = map) ∧
    (∀ map target : Bitmap, target.fromJson jansson (some (map.toJson jansson)) = (0, map)) ∧
    (∀ map : Bitmap, map.toArray.Pairwise (· < ·) ∧ map.toArray.length = map.nset ∧
      ∀ item : Int, item ∈ map.toArray ↔ ∃ i : Nat, item = i ∧ map.isset i = 1) ∧
    (∀ items : List Int, (∀ item ∈ items, -(2 ^ 31) ≤ item ∧ item < 2 ^ 31) →
      (Bitmap.fromArray items).toArray.Pairwise (· < ·) ∧
      ∀ item, item ∈ (Bitmap.fromArray items).toArray ↔ item ∈ items ∧ 0 ≤ item ∧ item < 2048) ∧
    (∀ one two : Scope, scopeCmp one two = 0 ↔
      one.cpu = two.cpu ∧ one.numa = two.numa ∧ one.gpu = two.gpu) ∧
    ∀ (name : List UInt8) (scope target : Scope), scope.uuid = stringFromchar name →
      ValidUtf8 scope.uuid → ∃ json result, scopeToJson jansson scope = some json ∧
        scopeFromJson jansson target (some json) = (0, result) ∧ result.uuid = scope.uuid ∧
        scopeCmp result scope = 0 := by
  refine ⟨Bitmap.fromArray_toArray, Bitmap.fromJson_toJson documented, ?_, ?_, scopeCmp_eq_zero_iff, ?_⟩
  · intro map
    refine ⟨map.toArray_increasing, map.toArray_length, fun item => ?_⟩
    simp only [Bitmap.isset_eq_one_iff]
    exact map.mem_toArray item
  · intro items int32
    exact ⟨Bitmap.toArray_increasing _, Bitmap.mem_toArray_fromArray int32⟩
  · intro name scope target named valid
    have free : NulFree scope.uuid := named ▸ stringFromchar_nulFree name
    obtain ⟨json, packed, unpacked⟩ := scopeFromJson_toJson documented free valid target
    exact ⟨json, scope, packed, unpacked, rfl, (scopeCmp_eq_zero_iff scope scope).mpr ⟨rfl, rfl, rfl⟩⟩

def Jansson.integers (jansson : Jansson) (values : List jansson.Json) : List Int :=
  values.filterMap jansson.integerOf

/-- Whatever the elements are, each of them sets the bit its value has modulo
`2 ^ 32`, and what is not an integer has the value zero. -/
theorem Bitmap.bit_fromJson {jansson : Jansson} (values : List jansson.Json) {i : Nat}
    (inside : i < bitmapMax) :
    (fromArray (values.map jansson.integerValue)).bit i = true ↔
      (∃ x ∈ jansson.integers values, unsignedInt x = i) ∨
        (i = 0 ∧ ∃ value ∈ values, jansson.integerOf value = none) := by
  rw [bit_fromArray _ inside]
  simp only [List.mem_map, Jansson.integers, List.mem_filterMap, Jansson.integerValue]
  constructor
  · rintro ⟨_, ⟨value, member, rfl⟩, converted⟩
    cases kind : jansson.integerOf value with
    | some x =>
        rw [kind] at converted
        exact .inl ⟨x, ⟨value, member, kind⟩, converted⟩
    | none =>
        rw [kind] at converted
        exact .inr ⟨converted.symm, value, member, kind⟩
  · rintro (⟨x, ⟨value, member, kind⟩, converted⟩ | ⟨rfl, value, member, kind⟩)
    · exact ⟨_, ⟨value, member, rfl⟩, by rw [kind]; exact converted⟩
    · exact ⟨_, ⟨value, member, rfl⟩, by rw [kind]; rfl⟩

/-- The bits that are set are the indices in the array exactly when no element
stands for another index: one that is congruent to an index modulo `2 ^ 32` comes
with that index, and one that is not an integer comes with zero. -/
theorem json_bits_iff {jansson : Jansson} {json : jansson.Json} {values : List jansson.Json}
    (isArray : jansson.elements json = some values) (target : Bitmap) :
    ∃ map, target.fromJson jansson (some json) = (0, map) ∧
      ((∀ i : Nat, map.isset i = 1 ↔ i < 2048 ∧ (i : Int) ∈ jansson.integers values) ↔
        (∀ x ∈ jansson.integers values, ∀ i : Nat, i < 2048 → x % 2 ^ 32 = i →
          (i : Int) ∈ jansson.integers values) ∧
        ((∃ value ∈ values, jansson.integerOf value = none) → 0 ∈ jansson.integers values)) := by
  refine ⟨_, Bitmap.fromJson_of_elements isArray target, ?_⟩
  simp only [Bitmap.isset_eq_one_iff]
  constructor
  · intro agree
    refine ⟨?_, ?_⟩
    · intro x member i inside residue
      have isSet := (Bitmap.bit_fromJson values (show i < bitmapMax from inside)).mpr
        (.inl ⟨x, member, by simp only [unsignedInt, residue, Int.toNat_natCast]⟩)
      exact ((agree i).mp isSet).2
    · intro other
      have isSet := (Bitmap.bit_fromJson values (show 0 < bitmapMax by decide)).mpr (.inr ⟨rfl, other⟩)
      exact ((agree 0).mp isSet).2
  · rintro ⟨residues, others⟩ i
    constructor
    · intro isSet
      have inside := Bitmap.bit_inside isSet
      refine ⟨inside, ?_⟩
      rcases (Bitmap.bit_fromJson values inside).mp isSet with ⟨x, member, converted⟩ | ⟨rfl, other⟩
      · apply residues x member i inside
        unfold unsignedInt at converted
        omega
      · exact others other
    · rintro ⟨inside, member⟩
      refine (Bitmap.bit_fromJson values (show i < bitmapMax from inside)).mpr (.inl ⟨i, member, ?_⟩)
      unfold unsignedInt
      omega

/-- The name `g`, cpus 1 and 2047, and memory node 3. -/
def sampleScope : Scope :=
  ⟨[103], (Bitmap.reset.set 1).2.set 2047 |>.2, (Bitmap.reset.set 3).2, .reset⟩

theorem resource_sets_survive_sample :
    ∃ json result, scopeToJson trees sampleScope = some json ∧
      scopeFromJson trees (scopeCreate [120]) (some json) = (0, result) ∧
      result.uuid = [103] ∧ scopeCmp result sampleScope = 0 ∧ sampleScope.cpu.toArray = [1, 2047] := by
  obtain ⟨-, -, -, -, -, scopes⟩ := resource_sets_survive trees trees_documented
  obtain ⟨json, result, packed, unpacked, named, same⟩ :=
    scopes [103] sampleScope (scopeCreate [120]) rfl (by decide +kernel)
  exact ⟨json, result, packed, unpacked, named, same, by decide +kernel⟩

/-- A name that is not UTF-8 cannot be packed, and what comes back is an error and
the scope that was there before. -/
theorem invalid_name_lost :
    trees.Documented ∧ scopeToJson trees (scopeCreate [255]) = none ∧
    scopeFromJson trees (scopeCreate [120]) (scopeToJson trees (scopeCreate [255])) =
      (-nrmEinval, scopeCreate [120]) ∧
    (scopeCreate [120]).uuid ≠ (scopeCreate [255]).uuid := by
  have packed : scopeToJson trees (scopeCreate [255]) = none :=
    scopeToJson_of_invalid trees_documented (by decide +kernel)
  refine ⟨trees_documented, packed, ?_, by decide⟩
  rw [packed]
  rfl

theorem json_bits_iff_sample :
    ∃ map, Bitmap.reset.fromJson trees
        (some (.array [.integer 5, .integer (-1), .integer 2048])) = (0, map) ∧
      ∀ i : Nat, map.isset i = 1 ↔ i < 2048 ∧ (i : Int) ∈ [5, -1, 2048] := by
  obtain ⟨map, read, bits⟩ := json_bits_iff
    (show trees.elements (.array [.integer 5, .integer (-1), .integer 2048]) =
      some [.integer 5, .integer (-1), .integer 2048] from rfl) .reset
  refine ⟨map, read, bits.mpr ⟨?_, ?_⟩⟩
  · intro x member i inside residue
    have cases : x = 5 ∨ x = -1 ∨ x = 2048 := by
      simpa [Jansson.integers, trees] using member
    have five : (i : Int) = 5 := by omega
    rw [five]
    exact List.mem_cons_self
  · rintro ⟨value, member, other⟩
    have integers : ∀ value ∈ ([.integer 5, .integer (-1), .integer 2048] : List JsonTree),
        trees.integerOf value ≠ none := by simp [trees]
    exact absurd other (integers value member)

/-- An element beyond 32 bits sets the bit of its residue, and a string sets bit zero. -/
theorem large_integer_sets_bit :
    (∃ map, Bitmap.reset.fromJson trees (some (.array [.integer (2 ^ 32 + 5)])) = (0, map) ∧
      map.isset 5 = 1 ∧ ¬ (∀ i : Nat, map.isset i = 1 ↔ i < 2048 ∧ (i : Int) ∈ [2 ^ 32 + 5])) ∧
    ∃ map, Bitmap.reset.fromJson trees (some (.array [.string [120]])) = (0, map) ∧
      map.isset 0 = 1 := by
  refine ⟨⟨_, rfl, by decide +kernel, ?_⟩, _, rfl, by decide +kernel⟩
  intro exact
  have listed := ((exact 5).mp (by decide +kernel)).2
  simp at listed

end LibNrm
