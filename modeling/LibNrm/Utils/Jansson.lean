import LibNrm.Utils.Basic
import Mathlib.Data.Rat.Defs

namespace LibNrm

/-- The strings jansson takes. -/
def ValidUtf8 (chars : List UInt8) : Prop := (ByteArray.mk chars.toArray).IsValidUTF8

instance (chars : List UInt8) : Decidable (ValidUtf8 chars) :=
  inferInstanceAs (Decidable (ByteArray.mk chars.toArray).IsValidUTF8)

/-- The functions of jansson that the library calls.  A `json_t *` that is NULL is `none`,
and doubles are exact rationals. -/
structure Jansson where
  Json : Type
  /-- `json_null` -/
  null : Json
  /-- `json_integer` -/
  integer : Int → Json
  /-- `json_real` -/
  real : ℚ → Json
  /-- `json_string`, NULL when it fails. -/
  string : List UInt8 → Option Json
  /-- `json_array`, then `json_array_append_new` of each item. -/
  array : List Json → Json
  /-- `json_object`, then `json_object_set_new` of each member. -/
  object : List (String × Json) → Json
  /-- The number in what is an integer by `json_is_integer`. -/
  integerOf : Json → Option Int
  /-- The number in what is a real by `json_is_real`. -/
  realOf : Json → Option ℚ
  /-- The characters of what is a string by `json_is_string`. -/
  stringOf : Json → Option (List UInt8)
  /-- The elements of what is an array by `json_is_array`. -/
  elements : Json → Option (List Json)
  /-- `json_object_get` on what is an object by `json_is_object`. -/
  members : Json → Option (String → Option Json)
  /-- `json_loads` without flags, NULL when it fails. -/
  loads : List UInt8 → Option Json
  /-- The bytes of a `json_t`, read as a `char *`. -/
  chars : Json → List UInt8

namespace Jansson

/-- What the manual says: whatever is built gives back what it was built from, and a string
is built exactly from valid UTF-8. -/
structure Documented (jansson : Jansson) : Prop where
  integerOf_integer : ∀ value, -(2 ^ 63) ≤ value → value < 2 ^ 63 →
    jansson.integerOf (jansson.integer value) = some value
  realOf_real : ∀ value, jansson.realOf (jansson.real value) = some value
  string_valid : ∀ text, ValidUtf8 (stringFromchar text) →
    ∃ json, jansson.string text = some json ∧ jansson.stringOf json = some (stringFromchar text)
  string_invalid : ∀ text, ¬ ValidUtf8 (stringFromchar text) → jansson.string text = none
  elements_array : ∀ items, jansson.elements (jansson.array items) = some items
  members_object : ∀ pairs, (pairs.map Prod.fst).Nodup →
    jansson.members (jansson.object pairs) = some fun key => pairs.lookup key

/-- The header: a `json_t` begins with its type, of which the lowest byte comes first, and
`JSON_STRING` is 2 and `JSON_NULL` is 7. -/
structure TypeFirst (jansson : Jansson) : Prop where
  chars_string : ∀ text json, jansson.string text = some json →
    stringFromchar (jansson.chars json) = [2]
  chars_null : stringFromchar (jansson.chars jansson.null) = [7]

variable (jansson : Jansson)

/-- `json_integer_value`: zero for what is not an integer. -/
def integerValue (json : jansson.Json) : Int := (jansson.integerOf json).getD 0

/-- `json_real_value`: zero for what is not a real. -/
def realValue (json : jansson.Json) : ℚ := (jansson.realOf json).getD 0

/-- A value by `o?`. -/
def orNull (json : Option jansson.Json) : Option jansson.Json := some (json.getD jansson.null)

/-- A member whose value is packed already. -/
def packMember {Json : Type} : String × Option Json → Option (String × Json)
  | (key, value) => value.map fun value => (key, value)

@[simp] theorem packMember_some {Json : Type} (key : String) (value : Json) :
    packMember (key, some value) = some (key, value) := rfl

@[simp] theorem packMember_none {Json : Type} (key : String) :
    packMember (key, (none : Option Json)) = none := rfl

/-- `json_pack` of an object, NULL if one of its values is. -/
def packObject (pairs : List (String × Option jansson.Json)) : Option jansson.Json :=
  (pairs.mapM packMember).map jansson.object

/-- What `json_unpack_ex` reads by a key with a `?` behind it, unless it fails. -/
def unpackOptional {Json : Type} (read : Json → Option A) : Option Json → Option (Option A)
  | none => some none
  | some json => (read json).map some

end Jansson

inductive JsonTree where
  | null
  | integer (value : Int)
  | real (value : ℚ)
  | string (chars : List UInt8)
  | array (items : List JsonTree)
  | object (pairs : List (String × JsonTree))

/-- A jansson whose values are trees; the empty object is the only text it loads. -/
def trees : Jansson where
  Json := JsonTree
  null := .null
  integer := .integer
  real := .real
  string text := if ValidUtf8 (stringFromchar text) then some (.string (stringFromchar text)) else none
  array := .array
  object := .object
  integerOf
    | .integer value => some value
    | _ => none
  realOf
    | .real value => some value
    | _ => none
  stringOf
    | .string chars => some chars
    | _ => none
  elements
    | .array items => some items
    | _ => none
  members
    | .object pairs => some fun key => pairs.lookup key
    | _ => none
  loads text := if text = [123, 125] then some (.object []) else none
  chars
    | .object _ => []
    | .array _ => [1]
    | .string _ => [2]
    | .integer _ => [3]
    | .real _ => [4]
    | .null => [7]

theorem trees_documented : trees.Documented where
  integerOf_integer _ _ _ := rfl
  realOf_real _ := rfl
  string_valid _ valid := ⟨_, if_pos valid, rfl⟩
  string_invalid _ invalid := if_neg invalid
  elements_array _ := rfl
  members_object _ _ := rfl

theorem trees_typeFirst : trees.TypeFirst where
  chars_string text json built := by
    simp only [trees] at built
    split at built
    · cases built
      rfl
    · cases built
  chars_null := rfl

end LibNrm
