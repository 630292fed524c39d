import LibNrm.Utils.Vectors

namespace LibNrm

/-- `strncmp` of two strings that end with a NUL. -/
def strncmp : Nat → List UInt8 → List UInt8 → Int
  | 0, _, _ => 0
  | n + 1, one, two =>
      let first := one.headD 0
      let second := two.headD 0
      if first ≠ second then (first.toNat : Int) - second.toNat
      else if first = 0 then 0
      else strncmp n one.tail two.tail

/-- `nrm_string_cmp`; a NULL string is `none`. -/
def stringCmp : Option NrmString → Option NrmString → Int
  | none, none => 0
  | some one, some two => strncmp one.length one two
  | _, _ => 1

/-- `nrm_uuid_cmp` -/
def uuidCmp (one two : Option NrmString) : Int := stringCmp one two

/-- The strings a key is taken for: those it begins, or, if a NUL cuts it short,
those cut to the same characters. -/
def KeyMatches : Option NrmString → Option NrmString → Prop
  | none, none => True
  | some key, some elt =>
      if NulFree key then key <+: elt else stringFromchar key = stringFromchar elt
  | _, _ => False

/-- A search by `nrm_string_cmp` that finds the first string equal to the key. -/
def FindsEqual (vector : List (Option NrmString)) (key : Option NrmString) : Prop :=
  ∀ pos, ((vectorFind stringCmp key vector pos).1 = 0 ↔ key ∈ vector) ∧
    ((vectorFind stringCmp key vector pos).1 = 0 →
      vector[(vectorFind stringCmp key vector pos).2]? = some key ∧
        ∀ j < (vectorFind stringCmp key vector pos).2, vector[j]? ≠ some key)

/-- A comparison that tells two strings apart, and the other way around alike. -/
def TellsApart (cmp : Option NrmString → Option NrmString → Int) (a b : NrmString) : Prop :=
  (cmp (some a) (some b) = 0 ↔ a = b) ∧ (cmp (some a) (some b) = 0 ↔ cmp (some b) (some a) = 0) ∧
    (cmp (some a) (some b) ≠ 0 → (cmp (some a) (some b)).sign = -(cmp (some b) (some a)).sign)

theorem byte_sub_eq_zero_iff (first second : UInt8) :
    (first.toNat : Int) - second.toNat = 0 ↔ first = second := by
  rw [← UInt8.toNat_inj]
  omega

theorem nulFree_cons {byte : UInt8} (nonzero : byte ≠ 0) (chars : NrmString) :
    NulFree (byte :: chars) ↔ NulFree chars := by
  simp [NulFree, nonzero.symm]

theorem stringFromchar_cons {byte : UInt8} (nonzero : byte ≠ 0) (chars : List UInt8) :
    stringFromchar (byte :: chars) = byte :: stringFromchar chars := by
  simp [stringFromchar, nonzero]

theorem stringFromchar_eq_nil_iff (chars : List UInt8) :
    stringFromchar chars = [] ↔ chars.headD 0 = 0 := by
  cases chars with
  | nil => simp [stringFromchar]
  | cons byte chars => by_cases zero : byte = 0 <;> simp [stringFromchar, zero]

theorem strncmp_nul (n : Nat) (key elt : List UInt8) :
    strncmp (n + 1) (0 :: key) elt = 0 ↔ elt.headD 0 = 0 := by
  simp only [strncmp, List.headD_cons, ↓reduceIte]
  by_cases same : elt.headD 0 = 0
  · simp only [same, ne_eq, not_true_eq_false, ↓reduceIte]
  · rw [if_pos (Ne.symm same), byte_sub_eq_zero_iff, eq_comm]

theorem strncmp_cons {byte : UInt8} (nonzero : byte ≠ 0) (n : Nat) (key elt : List UInt8) :
    strncmp (n + 1) (byte :: key) elt = 0 ↔
      ∃ rest, elt = byte :: rest ∧ strncmp n key rest = 0 := by
  simp only [strncmp, List.headD_cons, List.tail_cons, nonzero, ↓reduceIte]
  cases elt with
  | nil =>
      rw [if_pos (by simpa using nonzero), byte_sub_eq_zero_iff]
      simp [nonzero]
  | cons other elt =>
      by_cases same : byte = other
      · subst same
        simp
      · rw [if_pos (by simpa using same), byte_sub_eq_zero_iff]
        simp [same, Ne.symm same]

theorem strncmp_eq_zero_iff (key elt : NrmString) :
    strncmp key.length key elt = 0 ↔
      if NulFree key then key <+: elt else stringFromchar key = stringFromchar elt := by
  induction key generalizing elt with
  | nil => simp [strncmp, NulFree]
  | cons byte key ih =>
      rw [List.length_cons]
      by_cases zero : byte = 0
      · -- a NUL in both strings ends the comparison
        subst zero
        have cut : ¬ NulFree (0 :: key) := by simp [NulFree]
        have empty : stringFromchar (0 :: key) = [] := by simp [stringFromchar]
        rw [if_neg cut, strncmp_nul, empty, eq_comm (a := []), stringFromchar_eq_nil_iff]
      · rw [strncmp_cons zero]
        simp only [ih]
        by_cases free : NulFree key
        · rw [if_pos ((nulFree_cons zero key).mpr free)]
          simp only [free, ↓reduceIte]
          constructor
          · intro begun
            obtain ⟨rest, rfl, begins⟩ := begun
            exact (List.prefix_cons_inj byte).mpr begins
          · intro begun
            obtain ⟨rest, rfl⟩ := begun
            exact ⟨key ++ rest, rfl, List.prefix_append key rest⟩
        · rw [if_neg fun whole => free ((nulFree_cons zero key).mp whole), stringFromchar_cons zero]
          simp only [free, ↓reduceIte]
          constructor
          · intro begun
            obtain ⟨rest, rfl, same⟩ := begun
            rw [stringFromchar_cons zero, same]
          · intro same
            cases elt with
            | nil => cases same
            | cons other rest =>
                by_cases end' : other = 0
                · simp [stringFromchar, end'] at same
                · rw [stringFromchar_cons end', List.cons.injEq] at same
                  exact ⟨rest, by rw [same.1], same.2⟩

theorem stringCmp_eq_zero_iff (key elt : Option NrmString) :
    stringCmp key elt = 0 ↔ KeyMatches key elt := by
  cases key with
  | none => cases elt <;> simp [stringCmp, KeyMatches]
  | some key =>
      cases elt with
      | none => simp [stringCmp, KeyMatches]
      | some elt => exact strncmp_eq_zero_iff key elt

instance (key elt : Option NrmString) : Decidable (KeyMatches key elt) :=
  decidable_of_iff _ (stringCmp_eq_zero_iff key elt)

theorem keyMatches_self (key : Option NrmString) : KeyMatches key key := by
  cases key with
  | none => trivial
  | some key => by_cases free : NulFree key <;> simp [KeyMatches, free]

/-- A search by prefix is a search for equals if nothing else comes before them. -/
theorem findsEqual_iff (vector : List (Option NrmString)) (key : Option NrmString) :
    FindsEqual vector key ↔
      ∀ (i : Nat) elt, vector[i]? = some elt → elt ≠ key → KeyMatches key elt →
        ∃ j < i, vector[j]? = some key := by
  have equal_matches {i : Nat} (read : vector[i]? = some key) : MatchAt stringCmp key vector i :=
    ⟨key, read, (stringCmp_eq_zero_iff key key).mpr (keyMatches_self key)⟩
  rcases vectorFind_cases stringCmp key vector with ⟨i, ⟨⟨elt, read, same⟩, earlier⟩, found⟩ |
    ⟨nothing, failed⟩
  · have isMatch := (stringCmp_eq_zero_iff key elt).mp same
    constructor
    · intro finds j other readOther different matched
      obtain ⟨here, _⟩ := (finds 0).2 (by rw [found])
      rw [found] at here
      refine ⟨i, ?_, here⟩
      by_contra notBefore
      rcases Nat.lt_or_eq_of_le (Nat.le_of_not_lt notBefore) with before | rfl
      · exact earlier j before ⟨other, readOther, (stringCmp_eq_zero_iff key other).mpr matched⟩
      · rw [readOther] at here
        exact different (Option.some.inj here)
    · intro noOther pos
      have isKey : elt = key := by
        by_contra different
        obtain ⟨j, before, readKey⟩ := noOther i elt read different isMatch
        exact earlier j before (equal_matches readKey)
      subst isKey
      rw [found]
      exact ⟨iff_of_true rfl (List.mem_of_getElem? read),
        fun _ => ⟨read, fun j before readKey => earlier j before (equal_matches readKey)⟩⟩
  · constructor
    · intro _ j other readOther _ matched
      exact absurd ⟨other, readOther, (stringCmp_eq_zero_iff key other).mpr matched⟩ (nothing j)
    · intro _ pos
      rw [failed]
      refine ⟨iff_of_false (by simp) ?_, fun success => absurd success (by simp)⟩
      intro member
      obtain ⟨j, readKey⟩ := List.mem_iff_getElem?.mp member
      exact nothing j (equal_matches readKey)

theorem strncmp_swap {a b : NrmString} (freeA : NulFree a) (freeB : NulFree b)
    (notBegins : ¬ a <+: b) (notBegun : ¬ b <+: a) :
    strncmp b.length b a = -strncmp a.length a b := by
  induction a generalizing b with
  | nil => exact absurd (List.nil_prefix) notBegins
  | cons first a ih =>
      cases b with
      | nil => exact absurd (List.nil_prefix) notBegun
      | cons second b =>
          have nonzero : first ≠ 0 := fun zero => freeA (by simp [zero])
          by_cases same : first = second
          · subst same
            rw [List.cons_prefix_cons] at notBegins notBegun
            have rest := ih ((nulFree_cons nonzero a).mp freeA) ((nulFree_cons nonzero b).mp freeB)
              (fun begins => notBegins ⟨rfl, begins⟩) (fun begun => notBegun ⟨rfl, begun⟩)
            simpa [strncmp, nonzero] using rest
          · simp [strncmp, same, Ne.symm same]

theorem strncmp_eq_zero_iff_prefix {a : NrmString} (free : NulFree a) (b : NrmString) :
    strncmp a.length a b = 0 ↔ a <+: b := by
  rw [strncmp_eq_zero_iff, if_pos free]

theorem tellsApart_iff {a b : NrmString} (freeA : NulFree a) (freeB : NulFree b) :
    TellsApart stringCmp a b ↔ a = b ∨ (¬ a <+: b ∧ ¬ b <+: a) := by
  simp only [TellsApart, stringCmp, strncmp_eq_zero_iff_prefix freeA, strncmp_eq_zero_iff_prefix freeB,
    ne_eq]
  constructor
  · intro apart
    obtain ⟨equal, both, -⟩ := apart
    by_cases begins : a <+: b
    · exact .inl (equal.mp begins)
    · exact .inr ⟨begins, fun begun => begins (both.mpr begun)⟩
  · intro either
    rcases either with rfl | ⟨notBegins, notBegun⟩
    · simp
    · refine ⟨⟨fun begins => absurd begins notBegins, fun same => ?_⟩,
        ⟨fun begins => absurd begins notBegins, fun begun => absurd begun notBegun⟩, fun _ => ?_⟩
      · subst same
        exact List.prefix_rfl
      · rw [strncmp_swap freeA freeB notBegins notBegun, Int.sign_neg, neg_neg]

/-- When searching and comparing by `nrm_string_cmp` is about equal strings: no
string that the key begins comes before the first equal one, and neither of two
strings begins the other unless they are the same. -/
theorem string_search_iff (vector : List (Option NrmString)) (key : Option NrmString)
    (a b : NrmString) :
    (FindsEqual vector key ↔
      ∀ (i : Nat) elt, vector[i]? = some elt → elt ≠ key → KeyMatches key elt →
        ∃ j < i, vector[j]? = some key) ∧
    (NulFree a → NulFree b →
      (TellsApart stringCmp a b ↔ a = b ∨ (¬ a <+: b ∧ ¬ b <+: a)) ∧
      (TellsApart uuidCmp a b ↔ a = b ∨ (¬ a <+: b ∧ ¬ b <+: a))) := by
  refine ⟨findsEqual_iff vector key, ?_⟩
  intro freeA freeB
  exact ⟨tellsApart_iff freeA freeB, tellsApart_iff freeA freeB⟩

/-- Two letters that differ are told apart, and the second is found. -/
theorem string_search_letters :
    FindsEqual [some [97], some [98]] (some [98]) ∧ NulFree [97] ∧ NulFree [98] ∧
      TellsApart stringCmp [97] [98] := by
  obtain ⟨search, comparison⟩ :=
    string_search_iff [some [97], some [98]] (some [98]) [97] [98]
  refine ⟨search.mpr ?_, by decide, by decide,
    (comparison (by decide) (by decide)).1.mpr (.inr (by decide))⟩
  intro i elt read different matched
  cases i with
  | zero =>
      cases read
      revert matched
      decide
  | succ i =>
      cases i with
      | zero =>
          cases read
          exact absurd rfl different
      | succ i => cases read

/-- The key `a` is found in a vector that only has `ab`, and the empty string is
equal to `a` but not the other way around. -/
theorem prefix_found :
    vectorFind stringCmp (some [97]) [some [97, 98]] 7 = (0, 0) ∧
      ¬ FindsEqual [some [97, 98]] (some [97]) ∧ NulFree [] ∧ NulFree [97] ∧
      stringCmp (some []) (some [97]) = 0 ∧ stringCmp (some [97]) (some []) = 97 ∧
      ¬ TellsApart stringCmp [] [97] := by
  have found : vectorFind stringCmp (some [97]) [some [97, 98]] 7 = (0, 0) := by decide
  refine ⟨found, ?_, by decide, by decide, by decide, by decide, ?_⟩
  · intro finds
    have member := (finds 7).1.mp (by rw [found])
    revert member
    decide
  · intro apart
    have same := apart.1.mp (by decide)
    cases same

end LibNrm
