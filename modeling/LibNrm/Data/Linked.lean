import Mathlib.Data.List.Induction
import Mathlib.Data.List.Nodup
import Mathlib.Logic.Function.Basic

namespace LibNrm.Data

/-! Doubly linked lists in memory.

The links are two functions from addresses to pointers, one per field, so that a
write to one field cannot disturb the other.  `Linked` says that a list of
addresses is what the links spell; the lemmas below say what the usual pointer
surgery does to that list.
-/

variable {α : Type}

/-- The addresses of a list are linked in both directions, between two given ends. -/
def Linked (next prev : α → Option α) : Option α → List α → Option α → Prop
  | _, [], _ => True
  | before, x :: rest, after =>
      prev x = before ∧ next x = rest.head?.or after ∧ Linked next prev (some x) rest after

section Basic

variable {next prev next' prev' : α → Option α} {before after : Option α}

theorem linked_append (front back : List α) :
    Linked next prev before (front ++ back) after ↔
      Linked next prev before front (back.head?.or after) ∧
        Linked next prev (front.getLast?.or before) back after := by
  induction front generalizing before with
  | nil => simp [Linked]
  | cons x rest ih =>
      have first : (rest ++ back).head?.or after = rest.head?.or (back.head?.or after) := by
        rw [List.head?_append, Option.or_assoc]
      have last : (x :: rest).getLast?.or before = rest.getLast?.or (some x) := by
        rw [List.getLast?_cons]
        cases rest.getLast? <;> rfl
      simp only [List.cons_append, Linked, ih, first, last, and_assoc]

theorem Linked.congr {chain : List α} (linked : Linked next prev before chain after)
    (sameNext : ∀ x ∈ chain, next' x = next x) (samePrev : ∀ x ∈ chain, prev' x = prev x) :
    Linked next' prev' before chain after := by
  induction chain generalizing before with
  | nil => trivial
  | cons x rest ih =>
      obtain ⟨back, forth, linked⟩ := linked
      refine ⟨?_, ?_, ih linked ?_ ?_⟩
      · rw [samePrev x List.mem_cons_self, back]
      · rw [sameNext x List.mem_cons_self, forth]
      · exact fun y member => sameNext y (List.mem_cons_of_mem x member)
      · exact fun y member => samePrev y (List.mem_cons_of_mem x member)

theorem Linked.at {front back : List α} {x : α}
    (linked : Linked next prev before (front ++ x :: back) after) :
    prev x = front.getLast?.or before ∧ next x = back.head?.or after :=
  have split := (linked_append front (x :: back)).mp linked
  ⟨split.2.1, split.2.2.1⟩

end Basic

section Surgery

variable [DecidableEq α] {next prev : α → Option α} {before after : Option α}

/-- `if (target != NULL) target->field = value` -/
def relink (field : α → Option α) (target value : Option α) : α → Option α :=
  match target with
  | none => field
  | some x => Function.update field x value

theorem relink_of_ne {field : α → Option α} {target value : Option α} {x : α}
    (other : target ≠ some x) : relink field target value x = field x := by
  cases target with
  | none => rfl
  | some y =>
      have different : x ≠ y := fun same => other (same ▸ rfl)
      exact Function.update_of_ne different _ _

@[simp] theorem relink_some (field : α → Option α) (x : α) (value : Option α) :
    relink field (some x) value x = value := Function.update_self ..

theorem Linked.pushFront {chain : List α} {x : α} (linked : Linked next prev none chain none)
    (distinct : chain.Nodup) (fresh : x ∉ chain) :
    Linked (Function.update next x chain.head?)
      (relink (Function.update prev x none) chain.head? (some x)) none (x :: chain) none := by
  have apart : ∀ y ∈ chain, y ≠ x := fun y member same => fresh (same ▸ member)
  cases chain with
  | nil => exact ⟨Function.update_self .., Function.update_self .., trivial⟩
  | cons first rest =>
      obtain ⟨_, forth, linked⟩ := linked
      obtain ⟨notFirst, _⟩ := List.nodup_cons.mp distinct
      have other : first ≠ x := apart first List.mem_cons_self
      refine ⟨?_, Function.update_self .., relink_some .., ?_, ?_⟩
      · rw [List.head?_cons, relink_of_ne (fun same => other (Option.some.inj same)),
          Function.update_self]
      · rw [Function.update_of_ne other, forth]
      · refine linked.congr (fun y member => ?_) (fun y member => ?_)
        · exact Function.update_of_ne (apart y (List.mem_cons_of_mem first member)) ..
        · have later : first ≠ y := fun same => notFirst (same ▸ member)
          rw [List.head?_cons, relink_of_ne (fun same => later (Option.some.inj same)),
            Function.update_of_ne (apart y (List.mem_cons_of_mem first member))]

theorem Linked.pushBack {front : List α} {last x : α}
    (linked : Linked next prev none (front ++ [last]) none)
    (distinct : (front ++ [last]).Nodup) (fresh : x ∉ front ++ [last]) :
    Linked (Function.update (Function.update next x none) last (some x))
      (Function.update prev x (some last)) none (front ++ [last] ++ [x]) none := by
  have apart : ∀ y ∈ front ++ [last], y ≠ x := fun y member same => fresh (same ▸ member)
  have other : x ≠ last := fun same => apart last (by simp) same.symm
  have notLast : ∀ y ∈ front, y ≠ last := fun y member same =>
    (List.nodup_append.mp distinct).2.2 y member last (by simp) same
  obtain ⟨earlier, back, _⟩ := (linked_append front [last]).mp linked
  rw [List.append_assoc, linked_append]
  refine ⟨earlier.congr (fun y member => ?_) (fun y member => ?_), ?_, ?_, ?_, ?_, trivial⟩
  · rw [Function.update_of_ne (notLast y member),
      Function.update_of_ne (apart y (List.mem_append_left _ member))]
  · exact Function.update_of_ne (apart y (List.mem_append_left _ member)) ..
  · rw [Function.update_of_ne other.symm, back]
  · exact Function.update_self ..
  · exact Function.update_self ..
  · rw [Function.update_of_ne other, Function.update_self]
    rfl

/-- Taking an element out by joining its neighbours. -/
theorem Linked.unlink {front back : List α} {x : α}
    (linked : Linked next prev none (front ++ x :: back) none)
    (distinct : (front ++ x :: back).Nodup) :
    Linked (relink next (prev x) (next x)) (relink prev (next x) (prev x)) none (front ++ back)
      none := by
  obtain ⟨toPrev, toNext⟩ := linked.at
  rw [Option.or_none] at toPrev toNext
  obtain ⟨earlier, _, _, later⟩ := (linked_append front (x :: back)).mp linked
  obtain ⟨distinctFront, distinctBack, separate⟩ := List.nodup_append.mp distinct
  obtain ⟨_, distinctBack⟩ := List.nodup_cons.mp distinctBack
  have apart : ∀ y ∈ front, ∀ z ∈ back, y ≠ z := fun y inFront z inBack =>
    separate y inFront z (List.mem_cons_of_mem x inBack)
  rw [toPrev, toNext, linked_append]
  constructor
  · cases front using List.reverseRecOn with
    | nil => trivial
    | append_singleton front last =>
        have notLast : ∀ y ∈ front, y ≠ last := fun y member same =>
          (List.nodup_append.mp distinctFront).2.2 y member last (by simp) same
        have untouched : ∀ y ∈ front ++ [last],
            relink prev back.head? (front ++ [last]).getLast? y = prev y := by
          intro y member
          refine relink_of_ne fun same => ?_
          exact apart y member y (List.mem_of_mem_head? same) rfl
        obtain ⟨before, toLast, _⟩ := (linked_append front [last]).mp earlier
        rw [linked_append]
        refine ⟨before.congr (fun y member => ?_) (fun y member => ?_), ?_, ?_, trivial⟩
        · refine relink_of_ne fun same => ?_
          rw [List.getLast?_concat] at same
          exact notLast y member (Option.some.inj same).symm
        · exact untouched y (List.mem_append_left _ member)
        · rw [untouched last (by simp), toLast]
        · rw [List.getLast?_concat, relink_some]
          simp
  · cases back with
    | nil => trivial
    | cons first rest =>
        obtain ⟨notFirst, _⟩ := List.nodup_cons.mp distinctBack
        have untouched : ∀ y ∈ first :: rest,
            relink next front.getLast? (first :: rest).head? y = next y := by
          intro y member
          refine relink_of_ne fun same => ?_
          exact apart y (List.mem_of_getLast? same) y member rfl
        obtain ⟨_, forth, linked⟩ := later
        refine ⟨?_, ?_, linked.congr (fun y member => ?_) (fun y member => ?_)⟩
        · rw [List.head?_cons, relink_some, Option.or_none]
        · rw [untouched first List.mem_cons_self, forth]
        · exact untouched y (List.mem_cons_of_mem first member)
        · refine relink_of_ne fun same => ?_
          exact notFirst (Option.some.inj same ▸ member)

end Surgery

end LibNrm.Data
