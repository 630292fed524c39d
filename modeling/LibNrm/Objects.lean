import LibNrm.Utils.Bitmaps
import LibNrm.Utils.Hashes

namespace LibNrm

/-- `struct nrm_scope`, with `maps` indexed by `NRM_SCOPE_TYPE_CPU`, `_NUMA` and `_GPU`. -/
structure Scope where
  uuid : NrmString
  cpu : Bitmap
  numa : Bitmap
  gpu : Bitmap
deriving DecidableEq, Repr

structure Sensor where
  uuid : NrmString
deriving DecidableEq, Repr

structure Slice where
  uuid : NrmString
deriving DecidableEq, Repr

/-- `nrm_scope_create` -/
def scopeCreate (name : List UInt8) : Scope := ⟨stringFromchar name, .reset, .reset, .reset⟩

/-- `nrm_scope_cmp`, its loop over the three maps written out. -/
def scopeCmp (one two : Scope) : Int :=
  if one.cpu.cmp two.cpu ≠ 0 then 1
  else if one.numa.cmp two.numa ≠ 0 then 1
  else if one.gpu.cmp two.gpu ≠ 0 then 1
  else 0

/-- `nrm_sensor_create` -/
def sensorCreate (name : List UInt8) : Sensor := ⟨stringFromchar name⟩

/-- `nrm_slice_create` -/
def sliceCreate (name : List UInt8) : Slice := ⟨stringFromchar name⟩

/-- A destroy function that returns at once on NULL.  The result is the object
it released. -/
def destroyUnlessNull : Ptr α → Exec (Option α)
  | .null => .ok none
  | .object value => .ok (some value)
  | .freedElement => .error .danglingPointer

/-- `nrm_sensor_destroy` -/
def sensorDestroy : Ptr Sensor → Exec (Option Sensor) := destroyUnlessNull

/-- `nrm_slice_destroy` -/
def sliceDestroy : Ptr Slice → Exec (Option Slice) := destroyUnlessNull

/-- `nrm_scope_destroy` reads `s->uuid` without looking at `s` first. -/
def scopeDestroy : Ptr Scope → Exec (Option Scope)
  | .null => .error .nullDereference
  | .object value => .ok (some value)
  | .freedElement => .error .danglingPointer

end LibNrm
