import LibNrm.Utils.Basic

namespace LibNrm

/-! `parsers.c` on top of the `strtol` and `strtoull` of glibc at base 10, where `long`
has 64 bits.  A string that is not a number converts to zero without an error
code; only the end pointer tells, and only one of the three parsers looks at it.
-/

/-- `isspace` in the C locale. -/
def isSpace (byte : UInt8) : Bool := byte == 32 || (9 ≤ byte && byte ≤ 13)

/-- `isdigit` -/
def isDigit (byte : UInt8) : Bool := 48 ≤ byte && byte ≤ 57

/-- What a run of digits denotes. -/
def digitsValue (digits : List UInt8) : Nat :=
  digits.foldl (fun value digit => 10 * value + (digit.toNat - 48)) 0

/-- The sign that the subject of a conversion may start with. -/
def readSign : List UInt8 → Bool × List UInt8
  | 45 :: rest => (true, rest)
  | 43 :: rest => (false, rest)
  | chars => (false, chars)

/-- What a conversion finds in a string, behind the white space. -/
structure Subject where
  negative : Bool
  digits : List UInt8
  rest : List UInt8

def subject (str : List UInt8) : Subject :=
  let signed := readSign (str.dropWhile isSpace)
  ⟨signed.1, signed.2.takeWhile isDigit, signed.2.dropWhile isDigit⟩

def Subject.value (subject : Subject) : Int :=
  if subject.negative then -digitsValue subject.digits else digitsValue subject.digits

/-- `ERANGE` -/
def erange : Int := 34

/-- The result of a conversion, `errno` if it was zero before, and how far the end
pointer is behind the start. -/
structure Conversion where
  value : Int
  errno : Int
  consumed : Nat

/-- `strtol(str, &endptr, 10)` -/
def strtol (str : List UInt8) : Conversion :=
  let found := subject str
  let consumed := str.length - found.rest.length
  if found.digits = [] then ⟨0, 0, 0⟩
  else if found.value < -(2 ^ 63) then ⟨-(2 ^ 63), erange, consumed⟩
  else if found.value > 2 ^ 63 - 1 then ⟨2 ^ 63 - 1, erange, consumed⟩
  else ⟨found.value, 0, consumed⟩

/-- `strtoull(str, &endptr, 10)`: a negative number is negated as an unsigned one. -/
def strtoull (str : List UInt8) : Conversion :=
  let found := subject str
  let consumed := str.length - found.rest.length
  if found.digits = [] then ⟨0, 0, 0⟩
  else if digitsValue found.digits > 2 ^ 64 - 1 then ⟨2 ^ 64 - 1, erange, consumed⟩
  else ⟨found.value % 2 ^ 64, 0, consumed⟩

/-- The two parsers that go through a `long`, with their lower limit: the return
code and `*p`. -/
def parseLong (lower : Int) (str : List UInt8) (p : Int) : Int × Int :=
  let ret := strtol str
  if ret.errno ≠ 0 then (-nrmEinval, p)
  else if ret.value < lower ∨ ret.value > 2 ^ 31 - 1 then (-nrmEdom, p)
  else (0, ret.value)

/-- `nrm_parse_int` -/
def parseInt : List UInt8 → Int → Int × Int := parseLong (-(2 ^ 31))

/-- `nrm_parse_uint`; its upper limit is `INT_MAX` as well. -/
def parseUint : List UInt8 → Int → Int × Int := parseLong 0

/-- `nrm_parse_llu` -/
def parseLlu (str : List UInt8) (p : Int) : Int × Int :=
  let ret := strtoull str
  if ret.errno ≠ 0 then (-nrmEinval, p)
  else if ret.value = 0 ∧ ret.consumed = 0 then (-nrmEinval, p)
  else (0, ret.value)

/-- The string starts with white space, a sign and digits, as many as there are. -/
def Leading (str rest : List UInt8) (value : Int) : Prop :=
  ∃ blank sign digits, str = blank ++ (sign ++ (digits ++ rest)) ∧
    (∀ byte ∈ blank, isSpace byte = true) ∧ (sign = [] ∨ sign = [43] ∨ sign = [45]) ∧
    digits ≠ [] ∧ (∀ byte ∈ digits, isDigit byte = true) ∧
    (∀ byte ∈ rest.head?, isDigit byte = false) ∧
    value = if sign = [45] then -(digitsValue digits : Int) else digitsValue digits

/-- The string as a whole is a decimal numeral. -/
def Numeral (str : List UInt8) (value : Int) : Prop := Leading str [] value

/-- A parser that takes the numerals of a range, stores what they denote, and
leaves the variable alone when it fails. -/
def Exact (parser : List UInt8 → Int → Int × Int) (fits : Int → Prop) (str : List UInt8) : Prop :=
  ∀ p, ((parser str p).1 = 0 ↔ ∃ value, Numeral str value ∧ fits value) ∧
    ((parser str p).1 = 0 → ∀ value, Numeral str value → (parser str p).2 = value) ∧
    ((parser str p).1 ≠ 0 → (parser str p).2 = p)

theorem span_append {α : Type} {p : α → Bool} {front back : List α}
    (inside : ∀ a ∈ front, p a = true) (stops : ∀ a ∈ back.head?, p a = false) :
    (front ++ back).takeWhile p = front ∧ (front ++ back).dropWhile p = back := by
  rw [List.takeWhile_append_of_pos inside, List.dropWhile_append_of_pos inside]
  cases back with
  | nil => simp
  | cons a back => simp [stops a rfl]

theorem isSpace_of_isDigit {byte : UInt8} (digit : isDigit byte = true) : isSpace byte = false := by
  simp only [isDigit, isSpace, Bool.and_eq_true, decide_eq_true_eq, Bool.or_eq_false_iff,
    Bool.and_eq_false_iff, beq_eq_false_iff_ne, decide_eq_false_iff_not, UInt8.le_iff_toNat_le,
    ne_eq] at digit ⊢
  obtain ⟨lower, upper⟩ := digit
  refine ⟨?_, .inr ?_⟩
  · intro same
    subst same
    simp at lower
  · simp at lower ⊢
    omega

theorem readSign_of_isDigit {byte : UInt8} (digit : isDigit byte = true) (rest : List UInt8) :
    readSign (byte :: rest) = (false, byte :: rest) := by
  have notMinus : byte ≠ 45 := by
    intro same
    subst same
    revert digit
    decide
  have notPlus : byte ≠ 43 := by
    intro same
    subst same
    revert digit
    decide
  unfold readSign
  split
  · rename_i same
    exact absurd (List.cons.inj same).1 notMinus
  · rename_i same
    exact absurd (List.cons.inj same).1 notPlus
  · rfl

theorem readSign_cases (chars : List UInt8) :
    ∃ sign, chars = sign ++ (readSign chars).2 ∧ (sign = [] ∨ sign = [43] ∨ sign = [45]) ∧
      ((readSign chars).1 = true ↔ sign = [45]) := by
  unfold readSign
  split
  · exact ⟨[45], rfl, .inr (.inr rfl), by simp⟩
  · exact ⟨[43], rfl, .inr (.inl rfl), by simp⟩
  · exact ⟨[], rfl, .inl rfl, by simp⟩

theorem leading_iff {str rest : List UInt8} {value : Int} :
    Leading str rest value ↔
      (subject str).digits ≠ [] ∧ rest = (subject str).rest ∧ value = (subject str).value := by
  constructor
  · intro leading
    obtain ⟨blank, sign, digits, rfl, spaces, signs, nonempty, all, stops, rfl⟩ := leading
    obtain ⟨first, digits, rfl⟩ := List.exists_cons_of_ne_nil nonempty
    have digit : isDigit first = true := all first (by simp)
    have found : subject (blank ++ (sign ++ (first :: digits ++ rest))) =
        ⟨decide (sign = [45]), first :: digits, rest⟩ := by
      have unsigned := span_append all stops
      rcases signs with rfl | rfl | rfl
      · have trimmed := span_append spaces
          (show ∀ byte ∈ ([] ++ (first :: digits ++ rest)).head?, isSpace byte = false by
            simpa using isSpace_of_isDigit digit)
        simp only [subject, trimmed.2]
        rw [List.nil_append, List.cons_append, readSign_of_isDigit digit, ← List.cons_append,
          unsigned.1, unsigned.2]
        rfl
      · have trimmed := span_append spaces
          (show ∀ byte ∈ ([43] ++ (first :: digits ++ rest)).head?, isSpace byte = false by
            simp [isSpace])
        simp only [subject, trimmed.2]
        rw [List.singleton_append, readSign, unsigned.1, unsigned.2]
        rfl
      · have trimmed := span_append spaces
          (show ∀ byte ∈ ([45] ++ (first :: digits ++ rest)).head?, isSpace byte = false by
            simp [isSpace])
        simp only [subject, trimmed.2]
        rw [List.singleton_append, readSign, unsigned.1, unsigned.2]
        rfl
    rw [found]
    simp [Subject.value]
  · intro numeral
    obtain ⟨nonempty, rfl, rfl⟩ := numeral
    obtain ⟨sign, signed, signs, negative⟩ := readSign_cases (str.dropWhile isSpace)
    refine ⟨str.takeWhile isSpace, sign, (subject str).digits, ?_, ?_, signs, nonempty, ?_, ?_, ?_⟩
    · simp only [subject]
      rw [List.takeWhile_append_dropWhile, ← signed, List.takeWhile_append_dropWhile]
    · exact fun byte member => List.mem_takeWhile_imp member
    · exact fun byte member => List.mem_takeWhile_imp member
    · intro byte first
      have stops := List.head?_dropWhile_not isDigit (readSign (str.dropWhile isSpace)).2
      simp only [subject, Option.mem_def] at first
      rw [first] at stops
      exact stops
    · simp only [Subject.value, subject, negative]

theorem numeral_iff {str : List UInt8} {value : Int} :
    Numeral str value ↔
      (subject str).digits ≠ [] ∧ (subject str).rest = [] ∧ value = (subject str).value := by
  rw [Numeral, leading_iff, eq_comm (a := [])]

theorem exists_leading_iff {str : List UInt8} {property : List UInt8 → Int → Prop} :
    (∃ rest value, Leading str rest value ∧ property rest value) ↔
      (subject str).digits ≠ [] ∧ property (subject str).rest (subject str).value := by
  simp only [leading_iff]
  constructor
  · intro found
    obtain ⟨_, _, ⟨nonempty, rfl, rfl⟩, holds⟩ := found
    exact ⟨nonempty, holds⟩
  · intro found
    obtain ⟨nonempty, holds⟩ := found
    exact ⟨_, _, ⟨nonempty, rfl, rfl⟩, holds⟩

theorem subject_rest_length {str : List UInt8} (nonempty : (subject str).digits ≠ []) :
    (subject str).rest.length < str.length := by
  obtain ⟨blank, sign, digits, whole, _, _, present, _⟩ := leading_iff.mpr ⟨nonempty, rfl, rfl⟩
  have lengths := congrArg List.length whole
  have positive := List.length_pos_iff.mpr present
  simp only [List.length_append] at lengths
  omega

theorem subject_value_bounds (found : Subject) :
    -(digitsValue found.digits : Int) ≤ found.value ∧ found.value ≤ digitsValue found.digits ∧
      (found.value = digitsValue found.digits ∨ found.value = -(digitsValue found.digits : Int)) := by
  unfold Subject.value
  split <;> omega

theorem parseLong_eq (lower : Int) (str : List UInt8) (p : Int) :
    parseLong lower str p =
      if (subject str).digits = [] then
        if 0 < lower then (-nrmEdom, p) else (0, 0)
      else if (subject str).value < -(2 ^ 63) ∨ (subject str).value > 2 ^ 63 - 1 then (-nrmEinval, p)
      else if (subject str).value < lower ∨ (subject str).value > 2 ^ 31 - 1 then (-nrmEdom, p)
      else (0, (subject str).value) := by
  unfold parseLong strtol erange
  grind

theorem parseLlu_eq (str : List UInt8) (p : Int) :
    parseLlu str p =
      if (subject str).digits = [] ∨ digitsValue (subject str).digits > 2 ^ 64 - 1 then
        (-nrmEinval, p)
      else (0, (subject str).value % 2 ^ 64) := by
  have consumed (nonempty : (subject str).digits ≠ []) := subject_rest_length nonempty
  unfold parseLlu strtoull erange
  grind

/-- A parser that takes some strings, each with a value of its own, is exact if it
takes no other string than numerals, and of those the right ones for what they are. -/
theorem exact_iff {parser : List UInt8 → Int → Int × Int} {fits : Int → Prop} {str : List UInt8}
    {taken : Prop} {read : Int} (accepts : taken → ∀ p, parser str p = (0, read))
    (rejects : ¬ taken → ∀ p, (parser str p).1 ≠ 0 ∧ (parser str p).2 = p) :
    Exact parser fits str ↔
      (taken ↔ ((subject str).digits ≠ [] ∧ (subject str).rest = []) ∧ fits (subject str).value) ∧
        (taken → read = (subject str).value) := by
  have denotes : (∃ value, Numeral str value ∧ fits value) ↔
      ((subject str).digits ≠ [] ∧ (subject str).rest = []) ∧ fits (subject str).value := by
    simp only [numeral_iff]
    constructor
    · intro numeral
      obtain ⟨_, ⟨nonempty, whole, rfl⟩, fitting⟩ := numeral
      exact ⟨⟨nonempty, whole⟩, fitting⟩
    · intro numeral
      obtain ⟨⟨nonempty, whole⟩, fitting⟩ := numeral
      exact ⟨_, ⟨nonempty, whole, rfl⟩, fitting⟩
  by_cases accepted : taken
  · have result := accepts accepted
    simp only [Exact, result, accepted, denotes, true_iff, forall_const, ne_eq,
      not_true_eq_false, false_implies, and_true]
    constructor
    · intro result
      obtain ⟨whole, stored⟩ := result
      exact ⟨whole, stored _ (numeral_iff.mpr ⟨whole.1.1, whole.1.2, rfl⟩)⟩
    · intro result
      obtain ⟨whole, stored⟩ := result
      refine ⟨whole, fun value numeral => ?_⟩
      rw [stored, (numeral_iff.mp numeral).2.2]
  · have code (p : Int) : (parser str p).1 ≠ 0 := (rejects accepted p).1
    have kept (p : Int) : (parser str p).2 = p := (rejects accepted p).2
    simp only [Exact, code, kept, accepted, denotes, false_iff, false_implies, ne_eq,
      not_false_eq_true, implies_true, and_true, forall_const]

/-- A parser through a `long` is exact on a numeral if the limits agree about it,
and on any other string if it starts with a number out of the limits. -/
theorem parseLong_exact_iff {lower upper : Int} (str : List UInt8) (below : -(2 ^ 63) ≤ lower)
    (nonpos : lower ≤ 0) (above : 2 ^ 31 ≤ upper) :
    Exact (parseLong lower) (fun value => lower ≤ value ∧ value < upper) str ↔
      ∃ rest value, Leading str rest value ∧
        (value < lower ∨ (rest = [] ∧ value < 2 ^ 31) ∨ (rest ≠ [] ∧ 2 ^ 31 ≤ value) ∨
          upper ≤ value) := by
  rw [exists_leading_iff]
  by_cases empty : (subject str).digits = []
  · have accepts : True → ∀ p, parseLong lower str p = (0, 0) := by
      intro _ p
      rw [parseLong_eq, if_pos empty, if_neg (by omega)]
    rw [exact_iff accepts (fun never => absurd trivial never)]
    simp [empty]
  · have accepts : lower ≤ (subject str).value ∧ (subject str).value < 2 ^ 31 →
        ∀ p, parseLong lower str p = (0, (subject str).value) := by
      intro bounds p
      obtain ⟨least, most⟩ := bounds
      rw [parseLong_eq, if_neg empty, if_neg (by omega), if_neg (by omega)]
    have rejects : ¬ (lower ≤ (subject str).value ∧ (subject str).value < 2 ^ 31) →
        ∀ p, (parseLong lower str p).1 ≠ 0 ∧ (parseLong lower str p).2 = p := by
      intro outside p
      rw [parseLong_eq, if_neg empty]
      split
      · exact ⟨by simp [nrmEinval], rfl⟩
      · rw [if_pos (by omega)]
        exact ⟨by simp [nrmEdom], rfl⟩
    rw [exact_iff accepts rejects]
    by_cases whole : (subject str).rest = []
    · simp only [empty, whole, ne_eq, not_false_eq_true, not_true_eq_false, true_and, and_self,
        implies_true, and_true, false_and, false_or]
      omega
    · simp only [empty, whole, ne_eq, not_false_eq_true, and_false, false_and, iff_false,
        implies_true, and_true, false_or, true_and]
      omega

theorem parseLlu_exact_iff (str : List UInt8) :
    Exact parseLlu (fun value => 0 ≤ value ∧ value < 2 ^ 64) str ↔
      (∀ rest value, ¬ Leading str rest value) ∨
        ∃ rest value, Leading str rest value ∧
          ((rest = [] ∧ 0 ≤ value) ∨ value ≤ -(2 ^ 64) ∨ 2 ^ 64 ≤ value) := by
  have bounds := subject_value_bounds (subject str)
  rw [exists_leading_iff]
  have none_iff : (∀ rest value, ¬ Leading str rest value) ↔ (subject str).digits = [] := by
    simp only [leading_iff, not_and]
    constructor
    · intro never
      by_contra nonempty
      exact never _ _ nonempty rfl rfl
    · intro empty _ _ nonempty
      exact absurd empty nonempty
  rw [none_iff]
  have accepts : (subject str).digits ≠ [] ∧ digitsValue (subject str).digits < 2 ^ 64 →
      ∀ p, parseLlu str p = (0, (subject str).value % 2 ^ 64) := by
    intro accepted p
    obtain ⟨nonempty, small⟩ := accepted
    rw [parseLlu_eq, if_neg]
    intro refused
    rcases refused with empty | large
    · exact nonempty empty
    · omega
  have rejects : ¬ ((subject str).digits ≠ [] ∧ digitsValue (subject str).digits < 2 ^ 64) →
      ∀ p, (parseLlu str p).1 ≠ 0 ∧ (parseLlu str p).2 = p := by
    intro outside p
    rw [parseLlu_eq, if_pos]
    · exact ⟨by simp [nrmEinval], rfl⟩
    · by_cases empty : (subject str).digits = []
      · exact .inl empty
      · have large : ¬ digitsValue (subject str).digits < 2 ^ 64 := fun small =>
          outside ⟨empty, small⟩
        exact .inr (by omega)
  rw [exact_iff accepts rejects]
  by_cases empty : (subject str).digits = []
  · simp [empty]
  · by_cases whole : (subject str).rest = []
    · simp only [empty, whole, ne_eq, not_false_eq_true, true_and, and_self, false_or]
      omega
    · simp only [empty, whole, ne_eq, not_false_eq_true, true_and, and_false, false_and, false_or,
        iff_false]
      omega

/-- When each of the parsers takes exactly the numerals of its type: for `int`, the
string is a numeral or starts with one that does not fit; for `unsigned int`, the
numbers from `INT_MAX` to `UINT_MAX` are taken away on both sides; for
`unsigned long long`, the string has no number, a non-negative numeral, or one whose
magnitude does not fit. -/
theorem parsers_exact_iff (str : List UInt8) :
    (Exact parseInt (fun value => -(2 ^ 31) ≤ value ∧ value < 2 ^ 31) str ↔
      ∃ rest value, Leading str rest value ∧
        (rest = [] ∨ value < -(2 ^ 31) ∨ 2 ^ 31 ≤ value)) ∧
    (Exact parseUint (fun value => 0 ≤ value ∧ value < 2 ^ 32) str ↔
      ∃ rest value, Leading str rest value ∧
        (value < 0 ∨ (rest = [] ∧ value < 2 ^ 31) ∨ (rest ≠ [] ∧ 2 ^ 31 ≤ value) ∨
          2 ^ 32 ≤ value)) ∧
    (Exact parseLlu (fun value => 0 ≤ value ∧ value < 2 ^ 64) str ↔
      (∀ rest value, ¬ Leading str rest value) ∨
        ∃ rest value, Leading str rest value ∧
          ((rest = [] ∧ 0 ≤ value) ∨ value ≤ -(2 ^ 64) ∨ 2 ^ 64 ≤ value)) := by
  refine ⟨?_, parseLong_exact_iff str (by decide) le_rfl (by decide), parseLlu_exact_iff str⟩
  rw [parseInt, parseLong_exact_iff str (by decide) (by decide) le_rfl, exists_leading_iff,
    exists_leading_iff]
  apply and_congr_right
  intro _
  by_cases whole : (subject str).rest = []
  · simp only [whole, true_and, true_or, ne_eq, not_true_eq_false, false_and, false_or, iff_true]
    omega
  · simp only [whole, false_and, false_or, ne_eq, not_false_eq_true, true_and]
    omega

/-- The letter `a` is the number zero, and -1 is the largest of all. -/
theorem letter_parsed_as_zero :
    parseInt [97] 7 = (0, 0) ∧ parseUint [97] 7 = (0, 0) ∧
      parseLlu [45, 49] 7 = (0, 2 ^ 64 - 1) ∧
      ¬ Exact parseInt (fun value => -(2 ^ 31) ≤ value ∧ value < 2 ^ 31) [97] ∧
      ¬ Exact parseUint (fun value => 0 ≤ value ∧ value < 2 ^ 32) [97] ∧
      ¬ Exact parseLlu (fun value => 0 ≤ value ∧ value < 2 ^ 64) [45, 49] := by
  refine ⟨by decide, by decide, by decide, ?_, ?_, ?_⟩
  · intro precise
    obtain ⟨value, numeral, -⟩ := (precise 7).1.mp (by decide)
    exact (numeral_iff.mp numeral).1 (by decide)
  · intro precise
    obtain ⟨value, numeral, -⟩ := (precise 7).1.mp (by decide)
    exact (numeral_iff.mp numeral).1 (by decide)
  · intro precise
    obtain ⟨value, numeral, nonneg, -⟩ := (precise 7).1.mp (by decide)
    have negative : value = -1 := (numeral_iff.mp numeral).2.2.trans (by decide)
    omega

end LibNrm
