import LibNrm.Daemon.Reachable
import LibNrm.Utils.Rendering

namespace LibNrm

/-! `hwloc.c`: the daemon registers a scope for the objects of the machine it runs on,
and a client makes one out of what it may use.  What hwloc finds is a parameter.
-/

inductive HwlocType where
  | pu
  | other
deriving DecidableEq, Repr

/-- What is read of a `hwloc_obj_t`.  A set is given in the order in which
`hwloc_bitmap_foreach_begin` runs through it. -/
structure HwlocObject where
  type : HwlocType
  /-- what `hwloc_obj_type_snprintf` has to say -/
  typeText : NrmString
  logicalIndex : UInt32
  cpuset : List UInt32
  nodeset : List UInt32
deriving DecidableEq, Repr

inductive OsdevType where
  | gpu
  | coproc
  | other
deriving DecidableEq, Repr

structure OsDevice where
  type : OsdevType
  ioArity : Nat
  name : NrmString
deriving DecidableEq, Repr

structure Topology where
  /-- the objects by depth -/
  levels : List (List HwlocObject)
  osDevices : List OsDevice
deriving DecidableEq, Repr

/-- `NRM_SCOPE_TYPE_CPU` and the others. -/
inductive ScopeType where
  | cpu
  | numa
  | gpu
deriving DecidableEq, Repr

/-- `nrm_scope_add`, with its return code. -/
def scopeAdd (s : Scope) (type : ScopeType) (num : Nat) : Int × Scope :=
  match type with
  | .cpu => ((s.cpu.set num).1, { s with cpu := (s.cpu.set num).2 })
  | .numa => ((s.numa.set num).1, { s with numa := (s.numa.set num).2 })
  | .gpu => ((s.gpu.set num).1, { s with gpu := (s.gpu.set num).2 })

def scopeAddEach (s : Scope) (type : ScopeType) (bits : List UInt32) : Scope :=
  bits.foldl (fun s bit => (scopeAdd s type bit.toNat).2) s

/-- `nrm_scope_threadshared` and `nrm_scope_threadprivate`, for what `getcpu` says. -/
def scopeThreadshared (cpu node : UInt32) (s : Scope) : Scope :=
  (scopeAdd (scopeAdd s .cpu cpu.toNat).2 .numa node.toNat).2

def hwlocNamespace : NrmString :=
  -- nrm.hwloc.
  [110, 114, 109, 46, 104, 119, 108, 111, 99, 46]

/-- What `snprintf` leaves in the 256 bytes of `scope_name`. -/
def scopeName (parts : List NrmString) : NrmString :=
  (hwlocNamespace ++ [46].intercalate parts).take 255

/-- The 128 bytes of `buffer`. -/
def HwlocObject.buffer (object : HwlocObject) : NrmString := object.typeText.take 127

/-- L2 and L1d -/
def HwlocObject.skipped (object : HwlocObject) : Bool :=
  object.buffer = [76, 50] || object.buffer = [76, 49, 100]

/-- The scope of an object: first its nodes and then its processors. -/
def HwlocObject.scope (object : HwlocObject) : Scope :=
  let thisScope := scopeCreate (scopeName [object.buffer, decimal object.logicalIndex.toNat])
  scopeAddEach (scopeAddEach thisScope .numa object.nodeset) .cpu object.cpuset

/-- The additional scope of a PU, with a single node. -/
def HwlocObject.nodeScope (object : HwlocObject) (bit : UInt32) : Scope :=
  let thisScope := scopeCreate
    (scopeName [object.buffer, decimal object.logicalIndex.toNat, decimal bit.toNat])
  scopeAddEach (scopeAdd thisScope .numa bit.toNat).2 .cpu object.cpuset

def HwlocObject.scopes (object : HwlocObject) : List Scope :=
  if object.skipped then []
  else object.scope ::
    if object.type = .pu ∧ 1 < object.nodeset.length then object.nodeset.map object.nodeScope else []

def OsDevice.isGpu (object : OsDevice) : Bool := object.type = .gpu || object.type = .coproc

def hasSubdevices (devices : List OsDevice) : Bool :=
  devices.any fun object => object.isGpu && object.ioArity ≠ 0

/-- The second loop, from a value of `counter` on. -/
def gpuScopes (subdevices : Bool) : Nat → List OsDevice → List Scope
  | _, [] => []
  | counter, object :: rest =>
      if !object.isGpu then gpuScopes subdevices counter rest
      -- subdevices are not counted
      else if subdevices && object.ioArity = 0 then gpuScopes subdevices counter rest
      else
        (scopeAdd (scopeCreate (scopeName [object.name])) .gpu counter).2 ::
          gpuScopes subdevices (counter + 1) rest

def Topology.objects (topology : Topology) : List HwlocObject := topology.levels.flatten

/-- The scopes in the order in which they are made. -/
def Topology.scopes (topology : Topology) : List Scope :=
  topology.objects.flatMap HwlocObject.scopes ++
    gpuScopes (hasSubdevices topology.osDevices) 0 topology.osDevices

def addScopes (table : Hash Scope) (scopes : List Scope) : Hash Scope :=
  scopes.foldl (fun table scope => (table.add scope.uuid scope).2) table

/-- `nrm_scope_hwloc_scopes` -/
def scopeHwlocScopes (scopes : Hash Scope) (topology : Topology) : Hash Scope :=
  addScopes scopes topology.scopes

def globalScope : NrmString :=
  -- nrm.hwloc.Machine.0
  [110, 114, 109, 46, 104, 119, 108, 111, 99, 46, 77, 97, 99, 104, 105, 110, 101, 46, 48]

/-- The state `nrmd` starts with and `my_daemon.myscope`, which it asserts. -/
def nrmdInitState (topology : Topology) : Exec (State × Scope) := do
  let state := { State.create with scopes := scopeHwlocScopes .empty topology }
  match (state.scopes.find globalScope).2 with
  | none => .error .assertionFailed
  | some myscope => pure (state, myscope)

/-- The three flags of `nrm_scope_create_hwloc_allowed`, which have no bit in common. -/
def allowedFlags : Nat := 2 ^ 1 &&& 2 ^ 4 &&& 2 ^ 5

/-- `nrm_scope_create_hwloc_allowed`, for the sets hwloc allows with given flags. -/
def scopeCreateHwlocAllowed (allowed : Nat → List UInt32 × List UInt32) (name : NrmString) : Scope :=
  let (cpuset, nodeset) := allowed allowedFlags
  scopeAddEach (scopeAddEach (scopeCreate name) .cpu cpuset) .numa nodeset

def Bitmap.setEach (map : Bitmap) (bits : List UInt32) : Bitmap :=
  bits.foldl (fun map bit => (map.set bit.toNat).2) map

theorem scopeAddEach_eq (s : Scope) (type : ScopeType) (bits : List UInt32) :
    scopeAddEach s type bits =
      match type with
      | .cpu => { s with cpu := s.cpu.setEach bits }
      | .numa => { s with numa := s.numa.setEach bits }
      | .gpu => { s with gpu := s.gpu.setEach bits } := by
  induction bits generalizing s with
  | nil => cases type <;> rfl
  | cons bit bits ih =>
      rw [scopeAddEach, List.foldl_cons]
      refine (ih (scopeAdd s type bit.toNat).2).trans ?_
      cases type <;> rfl

theorem HwlocObject.scope_eq (object : HwlocObject) :
    object.scope = ⟨stringFromchar (scopeName [object.buffer, decimal object.logicalIndex.toNat]),
      Bitmap.reset.setEach object.cpuset, Bitmap.reset.setEach object.nodeset, .reset⟩ := by
  simp only [scope, scopeAddEach_eq, scopeCreate]

theorem HwlocObject.nodeScope_eq (object : HwlocObject) (bit : UInt32) :
    object.nodeScope bit = ⟨stringFromchar
        (scopeName [object.buffer, decimal object.logicalIndex.toNat, decimal bit.toNat]),
      Bitmap.reset.setEach object.cpuset, Bitmap.reset.setEach [bit], .reset⟩ := by
  simp only [nodeScope, scopeAddEach_eq, scopeCreate, scopeAdd]
  rfl

theorem digit_range {i : Nat} {digit : Char} (listed : digit ∈ Nat.toDigits 10 i) :
    48 ≤ digit.toNat ∧ digit.toNat ≤ 57 :=
  Char.isDigit_iff_toNat.mp (Nat.isDigit_of_mem_toDigits (by decide) (by decide) listed)

theorem decimal_digits (i : Nat) :
    (decimal i).map (fun byte => Char.ofNat byte.toNat) = Nat.toDigits 10 i := by
  rw [decimal, List.map_map]
  refine (List.map_congr_left ?_).trans (List.map_id _)
  intro digit listed
  have range := digit_range listed
  have byte : (UInt8.ofNat digit.toNat).toNat = digit.toNat := by
    rw [UInt8.toNat_ofNat', Nat.mod_eq_of_lt (by omega)]
  rw [Function.comp_apply, byte, Char.ofNat_toNat, id]

theorem decimal_injective : Function.Injective decimal := by
  intro i j same
  have digits : Nat.toDigits 10 i = Nat.toDigits 10 j := by
    rw [← decimal_digits, same, decimal_digits]
  rw [← Nat.ofDigitChars_ten_toDigits (n := i), digits, Nat.ofDigitChars_ten_toDigits]

theorem decimal_dotless (i : Nat) : 46 ∉ decimal i := by
  intro member
  obtain ⟨digit, listed, dot⟩ := List.mem_map.mp member
  have range := digit_range listed
  have same := congrArg UInt8.toNat dot
  rw [UInt8.toNat_ofNat'] at same
  change digit.toNat % 256 = 46 at same
  omega

theorem decimal_length_uint32 (i : UInt32) : (decimal i.toNat).length ≤ 10 := by
  rw [decimal, List.length_map, Nat.length_toDigits_le_iff (by decide) (by decide)]
  have bound := i.toNat_lt
  omega

/-- What hwloc promises of the objects of a topology. -/
structure Topology.Documented (topology : Topology) : Prop where
  /-- names of types are short words -/
  dotless : ∀ object ∈ topology.objects, 46 ∉ object.typeText
  nulFree : ∀ object ∈ topology.objects, NulFree object.typeText
  short : ∀ object ∈ topology.objects, object.typeText.length < 128
  /-- objects of one type are numbered -/
  numbered : (topology.objects.map fun object => (object.typeText, object.logicalIndex)).Nodup
  sets : ∀ object ∈ topology.objects, object.nodeset.Nodup
  /-- PU -/
  pu : ∀ object ∈ topology.objects, object.type = .pu →
    object.typeText = [80, 85] ∧ ∃ cpu, object.cpuset = [cpu]

/-- The words between the dots of the names of an object's scopes. -/
def HwlocObject.words (object : HwlocObject) : List (List NrmString) :=
  if object.skipped then []
  else [object.typeText, decimal object.logicalIndex.toNat] ::
    if object.type = .pu ∧ 1 < object.nodeset.length then
      object.nodeset.map fun bit =>
        [object.typeText, decimal object.logicalIndex.toNat, decimal bit.toNat]
    else []

theorem HwlocObject.words_cases {object : HwlocObject} {words : List NrmString}
    (listed : words ∈ object.words) :
    words = [object.typeText, decimal object.logicalIndex.toNat] ∨
      ∃ bit : UInt32, words = [object.typeText, decimal object.logicalIndex.toNat, decimal bit.toNat] := by
  simp only [HwlocObject.words] at listed
  split at listed
  · cases listed
  · rcases List.mem_cons.mp listed with rfl | node
    · exact .inl rfl
    · split at node
      · obtain ⟨bit, _, rfl⟩ := List.mem_map.mp node
        exact .inr ⟨bit, rfl⟩
      · cases node

theorem HwlocObject.words_take {object : HwlocObject} {words : List NrmString}
    (listed : words ∈ object.words) :
    words.take 2 = [object.typeText, decimal object.logicalIndex.toNat] := by
  rcases object.words_cases listed with rfl | ⟨bit, rfl⟩ <;> rfl

theorem HwlocObject.words_nodup {object : HwlocObject} (sets : object.nodeset.Nodup) :
    object.words.Nodup := by
  simp only [HwlocObject.words]
  split
  · exact List.nodup_nil
  · refine List.nodup_cons.mpr ⟨?_, ?_⟩
    · intro listed
      split at listed
      · simp at listed
      · cases listed
    · split
      · refine sets.map ?_
        intro bit other same
        simp only [List.cons.injEq, and_true, true_and] at same
        exact UInt32.toNat_inj.mp (decimal_injective same)
      · exact List.nodup_nil

/-- The name of a scope, if all of it fits. -/
def dotted (words : List NrmString) : NrmString := hwlocNamespace ++ [46].intercalate words

theorem dotted_injOn {words others : List NrmString} (dotless : ∀ word ∈ words, 46 ∉ word)
    (dotless' : ∀ word ∈ others, 46 ∉ word) (some : words ≠ []) (some' : others ≠ [])
    (same : dotted words = dotted others) : words = others := by
  have joined := List.append_cancel_left same
  rw [← List.splitOn_intercalate 46 dotless some, joined, List.splitOn_intercalate 46 dotless' some']

theorem stringFromchar_scopeName {words : List NrmString} (free : NulFree (dotted words))
    (short : (dotted words).length ≤ 255) : stringFromchar (scopeName words) = dotted words := by
  rw [scopeName, ← dotted, List.take_of_length_le short, stringFromchar_of_nulFree free]

section Documented

variable {topology : Topology} (documented : topology.Documented)
include documented

theorem Topology.Documented.words_nodup : (topology.objects.flatMap HwlocObject.words).Nodup := by
  refine List.nodup_flatMap.mpr ⟨fun object member => object.words_nodup (documented.sets object member), ?_⟩
  refine (List.pairwise_map.mp documented.numbered).imp ?_
  intro object other apart words first second
  have same := (object.words_take first).symm.trans (other.words_take second)
  simp only [List.cons.injEq, and_true] at same
  exact apart (Prod.ext same.1 (UInt32.toNat_inj.mp (decimal_injective same.2)))

theorem Topology.Documented.dotless_words {object : HwlocObject} (member : object ∈ topology.objects)
    {words : List NrmString} (listed : words ∈ object.words) : ∀ word ∈ words, 46 ∉ word := by
  have text := documented.dotless object member
  rcases object.words_cases listed with rfl | ⟨bit, rfl⟩
  · simp [text, decimal_dotless]
  · simp [text, decimal_dotless]

theorem Topology.Documented.name_words {object : HwlocObject} (member : object ∈ topology.objects)
    {words : List NrmString} (listed : words ∈ object.words) :
    stringFromchar (scopeName words) = dotted words := by
  have free := documented.nulFree object member
  have short := documented.short object member
  have index := decimal_length_uint32 object.logicalIndex
  have digits := decimal_nulFree object.logicalIndex.toNat
  unfold NulFree at free digits
  rcases object.words_cases listed with rfl | ⟨bit, rfl⟩
  · apply stringFromchar_scopeName
    · simp [NulFree, dotted, hwlocNamespace, List.intercalate, free, digits]
    · simp [dotted, hwlocNamespace, List.intercalate]
      omega
  · have node := decimal_length_uint32 bit
    have nodeDigits := decimal_nulFree bit.toNat
    unfold NulFree at nodeDigits
    apply stringFromchar_scopeName
    · simp [NulFree, dotted, hwlocNamespace, List.intercalate, free, digits, nodeDigits]
    · simp [dotted, hwlocNamespace, List.intercalate]
      omega

theorem Topology.Documented.buffer {object : HwlocObject} (member : object ∈ topology.objects) :
    object.buffer = object.typeText :=
  List.take_of_length_le (Nat.le_of_lt_succ (documented.short object member))

theorem Topology.Documented.scopes_uuid {object : HwlocObject} (member : object ∈ topology.objects) :
    object.scopes.map Scope.uuid = object.words.map dotted := by
  have names : ∀ words ∈ object.words, stringFromchar (scopeName words) = dotted words :=
    fun _ listed => documented.name_words member listed
  have same := documented.buffer member
  simp only [HwlocObject.words, HwlocObject.scopes] at names ⊢
  split
  · rfl
  · rename_i kept
    rw [if_neg kept] at names
    obtain ⟨first, rest⟩ := List.forall_mem_cons.mp names
    rw [List.map_cons, List.map_cons, object.scope_eq, same, first]
    split
    · rename_i several
      rw [if_pos several] at rest
      rw [List.map_map, List.map_map]
      congr 1
      apply List.map_congr_left
      intro bit listed
      rw [Function.comp_apply, Function.comp_apply, object.nodeScope_eq, same]
      exact rest _ (List.mem_map_of_mem listed)
    · rfl

theorem Topology.Documented.uuids_nodup :
    ((topology.objects.flatMap HwlocObject.scopes).map Scope.uuid).Nodup := by
  have names : (topology.objects.flatMap HwlocObject.scopes).map Scope.uuid =
      (topology.objects.flatMap HwlocObject.words).map dotted := by
    rw [List.map_flatMap, List.map_flatMap]
    exact List.flatMap_congr fun object member => documented.scopes_uuid member
  rw [names]
  refine List.Nodup.map_on ?_ documented.words_nodup
  intro words listed others listed' same
  obtain ⟨object, member, first⟩ := List.mem_flatMap.mp listed
  obtain ⟨other, member', second⟩ := List.mem_flatMap.mp listed'
  have some : words ≠ [] := by
    rintro rfl
    cases object.words_take first
  have some' : others ≠ [] := by
    rintro rfl
    cases other.words_take second
  exact dotted_injOn (documented.dotless_words member first) (documented.dotless_words member' second)
    some some' same

end Documented

theorem Hash.entries_add_prefix (table : Hash α) (uuid : NrmString) (ptr : α) :
    table.entries <+: (Hash.add table uuid ptr).2.entries := by
  cases found : table.lookup uuid with
  | none =>
      rw [Hash.add_of_absent ptr found]
      exact List.prefix_append _ _
  | some old => rw [Hash.add_of_present ptr found]

theorem addScopes_prefix (table : Hash Scope) (scopes : List Scope) :
    table.entries <+: (addScopes table scopes).entries := by
  induction scopes generalizing table with
  | nil => exact List.prefix_rfl
  | cons scope scopes ih =>
      exact (Hash.entries_add_prefix table scope.uuid scope).trans (ih (table.add scope.uuid scope).2)

theorem addScopes_of_nodup {table : Hash Scope} {scopes : List Scope}
    (apart : (table.keys ++ scopes.map Scope.uuid).Nodup) :
    (addScopes table scopes).entries = table.entries ++ scopes.map fun scope => (scope.uuid, scope) := by
  induction scopes generalizing table with
  | nil => simp [addScopes]
  | cons scope scopes ih =>
      have absent : table.lookup scope.uuid = none := by
        rw [Data.Table.lookup_eq_none_iff]
        intro listed
        exact (List.nodup_append.mp apart).2.2 _ listed _ List.mem_cons_self rfl
      have step : addScopes table (scope :: scopes) =
          addScopes (table.append scope.uuid scope) scopes := by
        rw [addScopes, List.foldl_cons, Hash.add_of_absent scope absent, addScopes]
      have next : ((table.append scope.uuid scope).keys ++ scopes.map Scope.uuid).Nodup := by
        rw [Data.Table.keys_append, List.append_assoc]
        exact apart
      rw [step, ih next]
      simp [Data.Table.append]

end LibNrm
