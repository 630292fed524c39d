import LibNrm.Data.Table
import Mathlib.Data.List.Chain
import Mathlib.Order.Defs.PartialOrder

namespace LibNrm.Data

/-! Grouping a stream of items by a key.

Items arrive one by one and are stored in a table of groups, a new group at the
end of the table when its key is seen for the first time.  The table then lists
the groups in the order of their first arrival, each in the order of arrival of
its items; reading it from end to end gives back the stream when the keys never
decrease.
-/

variable {E K : Type} [DecidableEq K]

def arrivals (key : E → K) (items : List E) : List K := (items.map key).eraseDups

def group (key : E → K) (items : List E) (k : K) : List E := items.filter fun e => key e = k

def groups (key : E → K) (items : List E) : List (K × List E) :=
  (arrivals key items).map fun k => (k, group key items k)

def regrouped (key : E → K) (items : List E) : List E := (groups key items).flatMap Prod.snd

theorem arrivals_cons (key : E → K) (e : E) (items : List E) :
    arrivals key (e :: items) = key e :: arrivals key (items.filter fun other => key other ≠ key e) := by
  simp only [arrivals, List.map_cons, List.eraseDups_cons, List.filter_map]
  congr 3
  apply List.filter_congr
  intro other _
  by_cases same : key other = key e <;> simp [same]

theorem mem_arrivals {key : E → K} {items : List E} {k : K} :
    k ∈ arrivals key items ↔ ∃ e ∈ items, key e = k := by
  simp [arrivals]

theorem arrivals_snoc (key : E → K) (items : List E) (e : E) :
    arrivals key (items ++ [e]) =
      if key e ∈ arrivals key items then arrivals key items else arrivals key items ++ [key e] := by
  simp only [arrivals, List.map_append, List.map_cons, List.map_nil, List.eraseDups_append,
    List.mem_eraseDups]
  by_cases seen : key e ∈ items.map key
  · have known : [key e].removeAll (items.map key) = [] := by simpa [List.removeAll] using seen
    rw [known, if_pos seen, List.eraseDups_nil, List.append_nil]
  · have fresh : [key e].removeAll (items.map key) = [key e] := by simpa [List.removeAll] using seen
    rw [fresh, if_neg seen]
    rfl

theorem arrivals_nodup (key : E → K) (items : List E) : (arrivals key items).Nodup := by
  induction items using List.reverseRecOn with
  | nil => exact List.nodup_nil
  | append_singleton items e ih =>
      rw [arrivals_snoc]
      by_cases seen : key e ∈ arrivals key items
      · rw [if_pos seen]
        exact ih
      · rw [if_neg seen]
        exact ih.append (List.nodup_singleton _) (List.disjoint_singleton.mpr seen)

theorem arrivals_filter (key : E → K) (selected : K → Bool) (items : List E) :
    arrivals key (items.filter fun e => selected (key e)) = (arrivals key items).filter selected := by
  induction items using List.reverseRecOn with
  | nil => rfl
  | append_singleton items e ih =>
      rw [List.filter_append, arrivals_snoc]
      by_cases inside : selected (key e) = true
      · have kept : [e].filter (fun e => selected (key e)) = [e] := by simp [inside]
        rw [kept, arrivals_snoc, ih]
        by_cases seen : key e ∈ arrivals key items
        · simp [seen, inside]
        · simp [seen, inside]
      · have dropped : [e].filter (fun e => selected (key e)) = [] := by simp [inside]
        rw [dropped, List.append_nil, ih]
        by_cases seen : key e ∈ arrivals key items
        · rw [if_pos seen]
        · rw [if_neg seen, List.filter_append]
          simp [inside]

theorem group_filter (key : E → K) (selected : K → Bool) {k : K} (inside : selected k = true)
    (items : List E) :
    group key (items.filter fun e => selected (key e)) k = group key items k := by
  simp only [group, List.filter_filter]
  apply List.filter_congr
  intro e _
  by_cases same : key e = k
  · simp [same, inside]
  · simp [same]

theorem groups_filter (key : E → K) (selected : K → Bool) (items : List E) :
    (groups key items).filter (fun entry => selected entry.1) =
      groups key (items.filter fun e => selected (key e)) := by
  simp only [groups, arrivals_filter, List.filter_map]
  apply List.map_congr_left
  intro k member
  rw [group_filter key selected (List.mem_filter.mp member).2]

theorem group_snoc (key : E → K) (items : List E) (e : E) (k : K) :
    group key (items ++ [e]) k =
      if k = key e then group key items k ++ [e] else group key items k := by
  unfold group
  rw [List.filter_append]
  by_cases same : k = key e
  · simp [same]
  · have different : key e ≠ k := fun equal => same equal.symm
    simp [same, different]

theorem group_ne_nil {key : E → K} {items : List E} {k : K} (member : k ∈ arrivals key items) :
    group key items k ≠ [] := by
  obtain ⟨e, listed, same⟩ := mem_arrivals.mp member
  exact List.ne_nil_of_mem (List.mem_filter.mpr ⟨listed, by simpa using same⟩)

theorem pairwise_group {key : E → K} {related : E → E → Prop} {items : List E} :
    (∀ k ∈ arrivals key items, (group key items k).Pairwise related) ↔
      items.Pairwise fun first second => key first = key second → related first second := by
  simp only [group, List.pairwise_filter, decide_eq_true_eq]
  constructor
  · intro each
    rw [List.pairwise_iff_forall_sublist]
    intro first second pair same
    have listed : first ∈ items := pair.subset List.mem_cons_self
    have together := each (key second) (mem_arrivals.mpr ⟨first, listed, same⟩)
    exact List.pairwise_iff_forall_sublist.mp together pair same rfl
  · intro all k _
    exact all.imp fun related firstKey secondKey => related (firstKey.trans secondKey.symm)

def Table.pushUnder (table : Table K (List E)) (k : K) (e : E) : Table K (List E) :=
  (match table.lookup k with
    | none => table.append k []
    | some _ => table).modify k fun items => items ++ [e]

theorem modifyEntries_map {V : Type} {keys : List K} (distinct : keys.Nodup) (value : K → V) (k : K)
    (change : V → V) :
    Table.modifyEntries k change (keys.map fun other => (other, value other)) =
      keys.map fun other => (other, if other = k then change (value other) else value other) := by
  induction keys with
  | nil => rfl
  | cons first rest ih =>
      obtain ⟨apart, distinct⟩ := List.nodup_cons.mp distinct
      simp only [List.map_cons, Table.modifyEntries]
      by_cases here : first = k
      · have unchanged : ∀ other ∈ rest, (other, value other) =
            (other, if other = k then change (value other) else value other) := by
          intro other member
          have different : other ≠ k := by
            rintro rfl
            exact apart (here ▸ member)
          rw [if_neg different]
        rw [if_pos here, if_pos here, List.map_congr_left unchanged]
      · rw [if_neg here, if_neg here, ih distinct]

theorem entries_pushUnder (key : E → K) {table : Table K (List E)} {items : List E}
    (grouped : table.entries = groups key items) (e : E) :
    (table.pushUnder (key e) e).entries = groups key (items ++ [e]) := by
  have keys : table.keys = arrivals key items := by
    simp [Table.keys, grouped, groups, Function.comp_def]
  -- with the group in place, whatever it was, the entries follow the new list of keys
  have ensured : (match table.lookup (key e) with
      | none => table.append (key e) []
      | some _ => table).entries =
        (arrivals key (items ++ [e])).map fun k => (k, group key items k) := by
    rw [arrivals_snoc]
    cases found : table.lookup (key e) with
    | none =>
        have absent : key e ∉ arrivals key items := keys ▸ Table.lookup_eq_none_iff.mp found
        have empty : group key items (key e) = [] := by
          apply List.filter_eq_nil_iff.mpr
          intro other listed same
          exact absent (mem_arrivals.mpr ⟨other, listed, by simpa using same⟩)
        simp only [Table.append, grouped, groups, if_neg absent, List.map_append, List.map_cons,
          List.map_nil, empty]
    | some old =>
        have present : key e ∈ arrivals key items := by
          rw [← keys]
          exact List.mem_map_of_mem (Table.mem_of_lookup found)
        rw [if_pos present, grouped, groups]
  unfold Table.pushUnder Table.modify
  rw [ensured, modifyEntries_map (arrivals_nodup key _)]
  apply List.map_congr_left
  intro k _
  rw [group_snoc]

theorem filter_append_filter_of_sorted [PartialOrder K] {key : E → K} {items : List E} {k : K}
    (sorted : items.Pairwise fun first second => key first ≤ key second)
    (least : ∀ e ∈ items, k ≤ key e) :
    (items.filter fun e => key e = k) ++ (items.filter fun e => key e ≠ k) = items := by
  induction items with
  | nil => rfl
  | cons e items ih =>
      obtain ⟨first, later⟩ := List.pairwise_cons.mp sorted
      by_cases here : key e = k
      · have tail := ih later fun other member => least other (List.mem_cons_of_mem _ member)
        simp only [List.filter_cons, here, decide_true, ↓reduceIte, ne_eq, not_true_eq_false,
          decide_false, List.cons_append, Bool.false_eq_true] at tail ⊢
        rw [tail]
      · have beyond : ∀ other ∈ e :: items, key other ≠ k := by
          intro other member same
          rcases List.mem_cons.mp member with rfl | listed
          · exact here same
          · exact here (le_antisymm (same ▸ first other listed) (least e List.mem_cons_self))
        rw [List.filter_eq_nil_iff.mpr fun other member => by simpa using beyond other member,
          List.filter_eq_self.mpr fun other member => by simpa using beyond other member]
        rfl

theorem regrouped_cons (key : E → K) (e : E) (items : List E) :
    regrouped key (e :: items) = group key (e :: items) (key e) ++
      regrouped key (items.filter fun other => key other ≠ key e) := by
  simp only [regrouped, groups, arrivals_cons, List.map_cons, List.flatMap_cons]
  congr 2
  apply List.map_congr_left
  intro k member
  obtain ⟨other, listed, same⟩ := mem_arrivals.mp member
  have different : key other ≠ key e := by simpa using (List.mem_filter.mp listed).2
  rw [same] at different
  have skipped : group key (e :: items) k = group key items k := by
    simp [group, Ne.symm different]
  rw [skipped, ← group_filter key (fun k => k ≠ key e) (by simpa using different) items]

/-- A stream whose keys never decrease is read back as it came. -/
theorem regrouped_of_sorted [PartialOrder K] {key : E → K} {items : List E}
    (sorted : items.Pairwise fun first second => key first ≤ key second) :
    regrouped key items = items := by
  -- the first group is taken off whole, so the recursion is on the length
  induction length : items.length using Nat.strong_induction_on generalizing items with
  | h size ih =>
      cases items with
      | nil => rfl
      | cons e rest =>
          obtain ⟨first, later⟩ := List.pairwise_cons.mp sorted
          have shorter : (rest.filter fun other => key other ≠ key e).length < size := by
            rw [← length]
            exact Nat.lt_succ_of_le (List.length_filter_le _ _)
          have others := ih _ shorter (later.sublist List.filter_sublist) rfl
          have least : ∀ other ∈ e :: rest, key e ≤ key other := by
            intro other member
            rcases List.mem_cons.mp member with rfl | listed
            · exact le_rfl
            · exact first other listed
          have parts := filter_append_filter_of_sorted sorted least
          rw [regrouped_cons, others]
          simpa [group] using parts

/-- Neighbours in the reading are neighbours in a group, or stand on the two
sides of a boundary between groups. -/
theorem isChain_regrouped {key : E → K} {related : E → E → Prop} {items : List E} :
    (regrouped key items).IsChain related ↔
      (∀ k ∈ arrivals key items, (group key items k).IsChain related) ∧
      (arrivals key items).IsChain fun k next =>
        ∀ last ∈ (group key items k).getLast?, ∀ first ∈ (group key items next).head?,
          related last first := by
  have reading : regrouped key items = ((arrivals key items).map (group key items)).flatten := by
    simp only [regrouped, groups, List.flatMap_def, List.map_map]
    rfl
  have nonempty : [] ∉ (arrivals key items).map (group key items) := by
    intro member
    obtain ⟨k, listed, empty⟩ := List.mem_map.mp member
    exact group_ne_nil listed empty
  rw [reading, List.isChain_flatten nonempty, List.isChain_map, List.forall_mem_map]

theorem regrouped_length (key : E → K) (items : List E) : (regrouped key items).length = items.length := by
  induction length : items.length using Nat.strong_induction_on generalizing items with
  | h size ih =>
      cases items with
      | nil => exact length
      | cons e rest =>
          have shorter : (rest.filter fun other => key other ≠ key e).length < size := by
            rw [← length]
            exact Nat.lt_succ_of_le (List.length_filter_le _ _)
          have others := ih _ shorter _ rfl
          have here : group key (e :: rest) (key e) = e :: rest.filter fun other => key other = key e := by
            simp [group]
          have parts := List.length_eq_length_filter_add (l := rest) fun other => decide (key other = key e)
          rw [regrouped_cons, List.length_append, others, here, ← length]
          simp only [List.length_cons, ne_eq, decide_not] at parts ⊢
          omega

end LibNrm.Data
