import Mathlib.Data.List.Forall2
import Mathlib.Data.List.Perm.Basic

namespace LibNrm.Data

/-! Building values out of heap blocks, and giving the blocks back.

A builder takes its addresses from a supply of fresh ones.  `Balanced` says that
a builder succeeds, that the value without its addresses is the expected one,
and that a destructor gives back what the builder took: every address, and each
of them once.
-/

abbrev Alloc (Fault : Type) := StateT Nat (Except Fault)

/-- A pointer to a block that holds a value. -/
structure Block (α : Type) where
  addr : Nat
  content : α
deriving DecidableEq, Repr

section Building

variable {Fault α β γ : Type}

/-- A block nobody has. -/
def calloc : Alloc Fault Nat := fun next => .ok (next, next + 1)

theorem bind_of_ok {first : Alloc Fault α} {rest : α → Alloc Fault β} {next middle : Nat} {value : α}
    (done : first next = .ok (value, middle)) : (first >>= rest) next = rest value middle := by
  change (first next >>= fun result => rest result.1 result.2) = rest value middle
  rw [done]
  rfl

theorem calloc_bind (rest : Nat → Alloc Fault β) (next : Nat) :
    (calloc >>= rest) next = rest next (next + 1) := bind_of_ok rfl

theorem liftM_bind {read : Except Fault α} {value : α} (done : read = .ok value)
    (rest : α → Alloc Fault β) (next : Nat) :
    ((liftM read : Alloc Fault α) >>= rest) next = rest value next := by
  subst done
  rfl

/-- Exactly the addresses between two states of the supply, in any order. -/
def Owned (first : Nat) (freed : List Nat) (last : Nat) : Prop :=
  first ≤ last ∧ freed.Perm (List.range' first (last - first))

theorem Owned.nil (first : Nat) : Owned first [] first := by
  refine ⟨Nat.le_refl first, ?_⟩
  simp

theorem Owned.append {first middle last : Nat} {freed others : List Nat}
    (left : Owned first freed middle) (right : Owned middle others last) :
    Owned first (freed ++ others) last := by
  refine ⟨Nat.le_trans left.1 right.1, ?_⟩
  have split : List.range' first (last - first) =
      List.range' first (middle - first) ++ List.range' middle (last - middle) := by
    have start : middle = first + 1 * (middle - first) := by
      have := left.1
      omega
    have size : last - first = (middle - first) + (last - middle) := by
      have := left.1
      have := right.1
      omega
    rw [size, List.range'_append.symm, ← start]
  rw [split]
  exact left.2.append right.2

theorem Owned.block {first last : Nat} {freed : List Nat} (inner : Owned (first + 1) freed last) :
    Owned first (freed ++ [first]) last := by
  have below := inner.1
  refine ⟨by omega, ?_⟩
  have size : last - first = (last - (first + 1)) + 1 := by omega
  rw [size, List.range'_succ]
  exact (List.perm_append_singleton first freed).trans (inner.2.cons first)

theorem Owned.of_block {first last : Nat} {freed : List Nat} (below : first + 1 ≤ last)
    (outer : (freed ++ [first]).Perm (List.range' first (last - first))) :
    Owned (first + 1) freed last := by
  refine ⟨below, ?_⟩
  have size : last - first = (last - (first + 1)) + 1 := by omega
  rw [size, List.range'_succ] at outer
  exact ((List.perm_append_singleton first freed).symm.trans outer).cons_inv

theorem Owned.single (first : Nat) : Owned first [first] (first + 1) := (Owned.nil (first + 1)).block

theorem Owned.length {first last : Nat} {freed : List Nat} (owned : Owned first freed last) :
    freed.length = last - first := by
  rw [owned.2.length_eq, List.length_range']

/-- A loop that destroys the elements of an array. -/
def destroyAll (destroy : α → Except Fault (List Nat)) : List α → Except Fault (List Nat)
  | [] => .ok []
  | built :: rest => do
      let freed ← destroy built
      let others ← destroyAll destroy rest
      pure (freed ++ others)

def Balanced (build : Alloc Fault α) (erase : α → β) (destroy : α → Except Fault (List Nat))
    (value : β) : Prop :=
  ∀ next, ∃ built last freed, build next = .ok (built, last) ∧ erase built = value ∧
    destroy built = .ok freed ∧ Owned next freed last

theorem Balanced.struct {δ : Type} {build : Alloc Fault α} {erase : α → β}
    {destroy : α → Except Fault (List Nat)} {value : β} (inner : Balanced build erase destroy value)
    (wrap : Nat → α → γ) (plain : β → δ) {eraseStruct : γ → δ}
    {destroyStruct : γ → Except Fault (List Nat)}
    (erased : ∀ addr built, eraseStruct (wrap addr built) = plain (erase built))
    (destroyed : ∀ addr built freed, destroy built = .ok freed →
      destroyStruct (wrap addr built) = .ok (freed ++ [addr])) :
    Balanced (do
      let addr ← calloc
      let built ← build
      pure (wrap addr built)) eraseStruct destroyStruct (plain value) := by
  intro next
  obtain ⟨built, last, freed, done, same, given, owned⟩ := inner (next + 1)
  refine ⟨wrap next built, last, freed ++ [next], ?_, ?_, destroyed next built freed given, owned.block⟩
  · rw [calloc_bind, bind_of_ok done]
    rfl
  · rw [erased, same]

theorem Balanced.mapM {items : List γ} {values : List β} {build : γ → Alloc Fault α} {erase : α → β}
    {destroy : α → Except Fault (List Nat)}
    (each : List.Forall₂ (fun item value => Balanced (build item) erase destroy value) items values) :
    Balanced (items.mapM build) (List.map erase) (destroyAll destroy) values := by
  induction each with
  | nil =>
      intro next
      exact ⟨[], next, [], rfl, rfl, rfl, .nil next⟩
  | @cons item value items values first rest ih =>
      intro next
      obtain ⟨head, middle, freed, built, same, given, owned⟩ := first next
      obtain ⟨tail, last, others, buildsRest, sameRest, givenRest, ownedRest⟩ := ih middle
      refine ⟨head :: tail, last, freed ++ others, ?_, ?_, ?_, owned.append ownedRest⟩
      · rw [List.mapM_cons, bind_of_ok built, bind_of_ok buildsRest]
        rfl
      · rw [List.map_cons, same, sameRest]
      · simp only [destroyAll, given, givenRest]
        rfl

theorem Balanced.map {items : List γ} {plain : γ → β} {build : γ → Alloc Fault α} {erase : α → β}
    {destroy : α → Except Fault (List Nat)}
    (each : ∀ item, Balanced (build item) erase destroy (plain item)) :
    Balanced (items.mapM build) (List.map erase) (destroyAll destroy) (items.map plain) := by
  apply Balanced.mapM
  rw [List.forall₂_map_right_iff, List.forall₂_same]
  intro item _
  exact each item

theorem destroyAll_ok (destroy : α → List Nat) (items : List α) :
    (destroyAll (fun item => .ok (destroy item)) items : Except Fault (List Nat)) =
      .ok (items.flatMap destroy) := by
  induction items with
  | nil => rfl
  | cons item rest ih =>
      simp only [destroyAll, ih, List.flatMap_cons]
      rfl

end Building

end LibNrm.Data
