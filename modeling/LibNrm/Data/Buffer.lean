import Mathlib.Data.List.Basic

namespace LibNrm.Data

variable {α : Type}

/-- Overwrite the items from an offset on, if all of them have a place. -/
def splice (buffer : List α) (offset : Nat) (items : List α) : Option (List α) :=
  if offset + items.length ≤ buffer.length then
    some (buffer.take offset ++ items ++ buffer.drop (offset + items.length))
  else none

theorem splice_append (front : List α) {back items : List α} (fits : items.length ≤ back.length) :
    splice (front ++ back) front.length items =
      some (front ++ items ++ back.drop items.length) := by
  have inside : front.length + items.length ≤ (front ++ back).length := by
    rw [List.length_append]
    omega
  rw [splice, if_pos inside, List.take_left, List.drop_append]
  simp

theorem splice_eq_some {buffer items after : List α} {offset : Nat}
    (written : splice buffer offset items = some after) :
    offset + items.length ≤ buffer.length ∧
      after = buffer.take offset ++ items ++ buffer.drop (offset + items.length) := by
  unfold splice at written
  split at written
  · rename_i inside
    cases written
    exact ⟨inside, rfl⟩
  · cases written

theorem splice_getElem? {buffer items after : List α} {offset : Nat}
    (written : splice buffer offset items = some after) {i : Nat} (before : i < offset) :
    after[i]? = buffer[i]? := by
  obtain ⟨inside, rfl⟩ := splice_eq_some written
  have taken : (buffer.take offset).length = offset := by
    rw [List.length_take]
    omega
  rw [List.append_assoc, List.getElem?_append_left (by omega), List.getElem?_take_of_lt before]

def extract (buffer : List α) (offset count : Nat) : List α := (buffer.drop offset).take count

theorem splice_length {buffer items after : List α} {offset : Nat}
    (written : splice buffer offset items = some after) : after.length = buffer.length := by
  obtain ⟨inside, rfl⟩ := splice_eq_some written
  simp only [List.length_append, List.length_take, List.length_drop]
  omega

theorem extract_splice_self {buffer items after : List α} {offset : Nat}
    (written : splice buffer offset items = some after) : extract after offset items.length = items := by
  obtain ⟨inside, rfl⟩ := splice_eq_some written
  have taken : (buffer.take offset).length = offset := by
    rw [List.length_take]
    omega
  rw [extract, List.append_assoc, List.drop_left' taken, List.take_left]

theorem extract_splice_other {buffer items after : List α} {offset : Nat}
    (written : splice buffer offset items = some after) {other count : Nat}
    (apart : other + count ≤ offset ∨ offset + items.length ≤ other) :
    extract after other count = extract buffer other count := by
  obtain ⟨inside, rfl⟩ := splice_eq_some written
  have taken : (buffer.take offset).length = offset := by
    rw [List.length_take]
    omega
  apply List.ext_getElem?
  intro i
  rw [extract, extract, List.getElem?_take, List.getElem?_take, List.getElem?_drop,
    List.getElem?_drop]
  split
  · rename_i near
    rcases apart with before | behind
    · rw [List.append_assoc, List.getElem?_append_left (by omega), List.getElem?_take_of_lt (by omega)]
    · rw [List.getElem?_append_right (by rw [List.length_append]; omega), List.getElem?_drop,
        List.length_append, taken]
      congr 1
      omega
  · rfl

theorem intercalate_snoc (separator last : List α) {parts : List (List α)} (nonempty : parts ≠ []) :
    separator.intercalate (parts ++ [last]) = separator.intercalate parts ++ separator ++ last := by
  induction parts with
  | nil => exact absurd rfl nonempty
  | cons part parts ih =>
      cases parts with
      | nil => simp
      | cons second parts =>
          have rest := ih (List.cons_ne_nil second parts)
          rw [List.cons_append] at rest
          rw [List.cons_append, List.cons_append, List.intercalate_cons_cons, rest,
            List.intercalate_cons_cons]
          simp only [List.append_assoc]

theorem intercalate_ne_nil (separator : List α) {parts : List (List α)} (nonempty : parts ≠ [])
    (filled : ∀ part ∈ parts, part ≠ []) : separator.intercalate parts ≠ [] := by
  cases parts with
  | nil => exact absurd rfl nonempty
  | cons part parts =>
      have first := filled part List.mem_cons_self
      cases parts with
      | nil => simpa using first
      | cons second parts =>
          rw [List.intercalate_cons_cons]
          intro empty
          rw [List.append_eq_nil_iff, List.append_eq_nil_iff] at empty
          exact first empty.1.1

end LibNrm.Data
