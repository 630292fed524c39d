import Mathlib.Data.List.Nodup

namespace LibNrm.Data

/-! Insertion-ordered association tables.

`Table` is the raw representation: a list of entries in the order of their
insertion, on which nothing forces the keys apart.  `append` is the primitive
insertion of an intrusive hash table and never looks for an earlier entry.
`OrdMap` is the abstract map: a table together with the proof that its keys are
pairwise distinct.
-/

structure Table (K V : Type) where
  entries : List (K × V)
deriving DecidableEq, Repr

namespace Table

variable {K V : Type}

instance : Inhabited (Table K V) := ⟨⟨[]⟩⟩

def empty : Table K V := ⟨[]⟩

def keys (table : Table K V) : List K := table.entries.map Prod.fst

def values (table : Table K V) : List V := table.entries.map Prod.snd

def append (table : Table K V) (key : K) (value : V) : Table K V :=
  ⟨table.entries ++ [(key, value)]⟩

/-- Every entry satisfies a predicate on its key and value. -/
def All (property : K → V → Prop) (table : Table K V) : Prop :=
  ∀ entry ∈ table.entries, property entry.1 entry.2

def Distinct (table : Table K V) : Prop := table.keys.Nodup

@[simp] theorem keys_append (table : Table K V) (key : K) (value : V) :
    (table.append key value).keys = table.keys ++ [key] := by
  simp [keys, append]

theorem all_empty (property : K → V → Prop) : All property (empty : Table K V) := by
  intro entry member
  cases member

theorem All.values {property : V → Prop} {table : Table K V}
    (all : table.All fun _ value => property value) : ∀ value ∈ table.values, property value := by
  intro value listed
  obtain ⟨entry, member, rfl⟩ := List.mem_map.mp listed
  exact all entry member

theorem distinct_empty : Distinct (empty : Table K V) := List.nodup_nil

theorem All.append {property : K → V → Prop} {table : Table K V} {key : K} {value : V}
    (all : All property table) (new : property key value) :
    All property (table.append key value) := by
  intro entry member
  rcases List.mem_append.mp member with old | last
  · exact all entry old
  · rw [List.mem_singleton.mp last]
    exact new

section Lookup

variable [DecidableEq K]

def lookup (table : Table K V) (key : K) : Option V :=
  (table.entries.find? (fun entry => entry.1 = key)).map Prod.snd

@[simp] theorem lookup_empty (key : K) : (empty : Table K V).lookup key = none := rfl

theorem lookup_eq_none_iff {table : Table K V} {key : K} :
    table.lookup key = none ↔ key ∉ table.keys := by
  simp only [lookup, keys, Option.map_eq_none_iff, List.find?_eq_none, decide_eq_true_eq,
    List.mem_map, not_exists, not_and]

theorem mem_of_lookup {table : Table K V} {key : K} {value : V}
    (found : table.lookup key = some value) : (key, value) ∈ table.entries := by
  obtain ⟨entry, first, rfl⟩ := Option.map_eq_some_iff.mp found
  have same : entry.1 = key := by simpa using List.find?_some first
  have member := List.mem_of_find?_eq_some first
  rw [← same]
  exact member

theorem Distinct.lookup_of_mem {table : Table K V} (distinct : Distinct table) {key : K} {value : V}
    (member : (key, value) ∈ table.entries) : table.lookup key = some value := by
  obtain ⟨entries⟩ := table
  unfold lookup
  induction entries with
  | nil => cases member
  | cons entry rest ih =>
      obtain ⟨first, other⟩ := entry
      obtain ⟨apart, distinct⟩ : first ∉ rest.map Prod.fst ∧ (rest.map Prod.fst).Nodup :=
        List.nodup_cons.mp distinct
      rcases List.mem_cons.mp member with here | later
      · cases here
        simp
      · have different : first ≠ key := by
          rintro rfl
          exact apart (List.mem_map_of_mem later)
        simpa [different] using ih distinct later

theorem All.lookup {property : K → V → Prop} {table : Table K V} {key : K} {value : V}
    (all : All property table) (found : table.lookup key = some value) : property key value :=
  all (key, value) (mem_of_lookup found)

theorem lookup_append (table : Table K V) (key other : K) (value : V) :
    (table.append key value).lookup other =
      match table.lookup other with
      | some old => some old
      | none => if key = other then some value else none := by
  unfold lookup append
  rw [List.find?_append]
  cases table.entries.find? (fun entry => entry.1 = other) with
  | some entry => rfl
  | none =>
      by_cases same : key = other
      · simp [same]
      · simp [same]

theorem lookup_append_self {table : Table K V} {key : K} (value : V)
    (absent : table.lookup key = none) : (table.append key value).lookup key = some value := by
  simp [lookup_append, absent]

theorem Distinct.append {table : Table K V} {key : K} (distinct : Distinct table) (value : V)
    (absent : table.lookup key = none) : Distinct (table.append key value) := by
  unfold Distinct
  rw [keys_append]
  exact List.nodup_append.mpr ⟨distinct, List.nodup_singleton key, fun _ old _ last same =>
    lookup_eq_none_iff.mp absent (List.mem_singleton.mp last ▸ same ▸ old)⟩

/-- Rewrite the value of the first entry under a key, in place. -/
def modifyEntries (key : K) (change : V → V) : List (K × V) → List (K × V)
  | [] => []
  | (first, value) :: rest =>
      if first = key then (first, change value) :: rest
      else (first, value) :: modifyEntries key change rest

def modify (table : Table K V) (key : K) (change : V → V) : Table K V :=
  ⟨modifyEntries key change table.entries⟩

@[simp] theorem keys_modify (table : Table K V) (key : K) (change : V → V) :
    (table.modify key change).keys = table.keys := by
  obtain ⟨entries⟩ := table
  change (modifyEntries key change entries).map Prod.fst = entries.map Prod.fst
  induction entries with
  | nil => rfl
  | cons entry rest ih =>
      obtain ⟨first, value⟩ := entry
      simp only [modifyEntries]
      split
      · rfl
      · simp only [List.map_cons, ih]

theorem Distinct.modify {table : Table K V} (distinct : Distinct table) (key : K)
    (change : V → V) : Distinct (table.modify key change) := by
  unfold Distinct
  rw [keys_modify]
  exact distinct

theorem lookup_modify (table : Table K V) (key other : K) (change : V → V) :
    (table.modify key change).lookup other =
      if other = key then (table.lookup other).map change else table.lookup other := by
  obtain ⟨entries⟩ := table
  unfold lookup modify
  induction entries with
  | nil => simp [modifyEntries]
  | cons entry rest ih =>
      obtain ⟨first, value⟩ := entry
      simp only [modifyEntries]
      by_cases here : first = key
      · subst here
        by_cases wanted : first = other
        · subst wanted
          simp
        · have different : other ≠ first := fun same => wanted same.symm
          simp [wanted, different]
      · by_cases wanted : first = other
        · subst wanted
          simp [here]
        · simpa [here, wanted] using ih

theorem modify_of_lookup_none {table : Table K V} {key : K} (absent : table.lookup key = none)
    (change : V → V) : table.modify key change = table := by
  obtain ⟨entries⟩ := table
  have missing := lookup_eq_none_iff.mp absent
  simp only [modify, mk.injEq]
  clear absent
  induction entries with
  | nil => rfl
  | cons entry rest ih =>
      obtain ⟨first, value⟩ := entry
      simp only [keys, List.map_cons, List.mem_cons, not_or] at missing
      have different : first ≠ key := fun same => missing.1 same.symm
      simp only [modifyEntries, different, ↓reduceIte]
      rw [ih missing.2]

theorem All.modify {property : K → V → Prop} {table : Table K V} {key : K} {change : V → V}
    (all : All property table) (kept : ∀ value, property key value → property key (change value)) :
    All property (table.modify key change) := by
  obtain ⟨entries⟩ := table
  change ∀ entry ∈ modifyEntries key change entries, property entry.1 entry.2
  induction entries with
  | nil => simp [modifyEntries]
  | cons entry rest ih =>
      obtain ⟨first, value⟩ := entry
      have head : property first value := all (first, value) List.mem_cons_self
      have tail : All property ⟨rest⟩ := fun entry member => all entry (List.mem_cons_of_mem _ member)
      simp only [modifyEntries]
      split
      · rename_i here
        subst here
        intro entry member
        rcases List.mem_cons.mp member with rfl | later
        · exact kept value head
        · exact tail entry later
      · intro entry member
        rcases List.mem_cons.mp member with rfl | later
        · exact head
        · exact ih tail entry later

/-- Drop the first entry under a key. -/
def erase (table : Table K V) (key : K) : Table K V :=
  ⟨table.entries.eraseP (fun entry => entry.1 = key)⟩

theorem erase_of_lookup_none {table : Table K V} {key : K} (absent : table.lookup key = none) :
    table.erase key = table := by
  have untouched : table.entries.eraseP (fun entry => entry.1 = key) = table.entries := by
    apply List.eraseP_of_forall_not
    intro entry member same
    have equal : entry.1 = key := by simpa using same
    exact lookup_eq_none_iff.mp absent (equal ▸ List.mem_map_of_mem member)
  unfold erase
  rw [untouched]

theorem Distinct.erase {table : Table K V} (distinct : Distinct table) (key : K) :
    Distinct (table.erase key) :=
  distinct.sublist (List.eraseP_sublist.map Prod.fst)

theorem erase_ne_self {table : Table K V} {key : K} {value : V}
    (found : table.lookup key = some value) : table.erase key ≠ table := by
  intro same
  have lengths := congrArg (fun table => table.entries.length) same
  have shorter := List.length_eraseP_of_mem (p := fun entry : K × V => decide (entry.1 = key))
    (mem_of_lookup found) (by simp)
  have positive : 0 < table.entries.length := List.length_pos_of_mem (mem_of_lookup found)
  simp only [erase] at lengths
  omega

end Lookup

section Renaming

variable {L W : Type} {name : K → L} {change : V → W} {table : Table K V}

/-- The same entries under other names. -/
def rename (name : K → L) (change : V → W) (table : Table K V) : Table L W :=
  ⟨table.entries.map fun entry => (name entry.1, change entry.2)⟩

theorem rename_append (key : K) (value : V) :
    (table.append key value).rename name change = (table.rename name change).append (name key) (change value) := by
  simp [rename, append]

theorem rename_congr {other : K → L} {changed : V → W}
    (same : ∀ entry ∈ table.entries, other entry.1 = name entry.1 ∧ changed entry.2 = change entry.2) :
    table.rename other changed = table.rename name change := by
  unfold rename
  rw [mk.injEq]
  apply List.map_congr_left
  intro entry member
  rw [(same entry member).1, (same entry member).2]

variable [DecidableEq L]

/-- The first entry whose key has a name. -/
def named (name : K → L) (wanted : L) (table : Table K V) : Option (K × V) :=
  table.entries.find? fun entry => name entry.1 = wanted

theorem lookup_rename (wanted : L) :
    (table.rename name change).lookup wanted = (table.named name wanted).map fun entry => change entry.2 := by
  unfold lookup rename named
  rw [List.find?_map, Option.map_map]
  rfl

variable [DecidableEq K]

theorem lookup_of_named {wanted : L} {entry : K × V} (found : table.named name wanted = some entry) :
    table.lookup entry.1 = some entry.2 := by
  obtain ⟨entries⟩ := table
  unfold named at found
  unfold lookup
  induction entries with
  | nil => cases found
  | cons first rest ih =>
      rw [List.find?_cons] at found ⊢
      by_cases here : name first.1 = wanted
      · simp only [here, decide_true, Option.some.injEq] at found
        simp [found]
      · simp only [here, decide_false] at found
        have other : first.1 ≠ entry.1 := by
          intro same
          have hit : name entry.1 = wanted := by simpa using List.find?_some found
          exact here (same ▸ hit)
        simpa [other] using ih found

theorem rename_modify {wanted : L} {entry : K × V} (found : table.named name wanted = some entry) (value : V) :
    (table.modify entry.1 fun _ => value).rename name change =
      (table.rename name change).modify wanted fun _ => change value := by
  obtain ⟨entries⟩ := table
  unfold named at found
  simp only [rename, modify, mk.injEq]
  induction entries with
  | nil => cases found
  | cons first rest ih =>
      obtain ⟨key, old⟩ := first
      rw [List.find?_cons] at found
      by_cases here : name key = wanted
      · simp only [here, decide_true, Option.some.injEq] at found
        cases found
        simp [modifyEntries, here]
      · simp only [here, decide_false] at found
        have other : key ≠ entry.1 := by
          rintro rfl
          have hit : name entry.1 = wanted := by simpa using List.find?_some found
          exact here hit
        simp only [modifyEntries, other, ↓reduceIte, List.map_cons, here]
        rw [ih found]

end Renaming

theorem count_flatMap_modify {β : Type} [DecidableEq K] [DecidableEq β] {table : Table K V} {key : K} {old : V}
    (found : table.lookup key = some old) (parts : V → List β) (value : V) (item : β) :
    ((table.modify key fun _ => value).values.flatMap parts).count item + (parts old).count item =
      (table.values.flatMap parts).count item + (parts value).count item := by
  obtain ⟨entries⟩ := table
  simp only [values, modify]
  unfold lookup at found
  induction entries with
  | nil => cases found
  | cons first rest ih =>
      obtain ⟨name, stored⟩ := first
      rw [List.find?_cons] at found
      by_cases here : name = key
      · simp only [here, decide_true, Option.map_some, Option.some.injEq] at found
        subst found
        simp only [modifyEntries, here, ↓reduceIte, List.map_cons, List.flatMap_cons, List.count_append]
        omega
      · simp only [here, decide_false] at found
        have later := ih found
        simp only [modifyEntries, here, ↓reduceIte, List.map_cons, List.flatMap_cons, List.count_append]
        omega

end Table

/-- An insertion-ordered finite map: a table that cannot hold a key twice. -/
structure OrdMap (K V : Type) extends Table K V where
  distinct : toTable.Distinct

namespace OrdMap

variable {K V : Type}

def empty : OrdMap K V := ⟨.empty, Table.distinct_empty⟩

variable [DecidableEq K]

/-- Insert at the end unless the key is taken. -/
def insertNew (map : OrdMap K V) (key : K) (value : V) : OrdMap K V :=
  if absent : map.lookup key = none then
    ⟨map.toTable.append key value, map.distinct.append value absent⟩
  else map

/-- Change the value under a key, if there is one. -/
def adjust (map : OrdMap K V) (key : K) (change : V → V) : OrdMap K V :=
  ⟨map.toTable.modify key change, map.distinct.modify key change⟩

end OrdMap

end LibNrm.Data
