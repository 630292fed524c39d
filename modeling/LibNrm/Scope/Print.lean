import LibNrm.Objects
import LibNrm.Utils.Rendering

namespace LibNrm

/-- The format of `nrm_scope_snprintf`. -/
def scopeFormat : List UInt8 :=
  -- name: %s:
  [110, 97, 109, 101, 58, 32, 37, 115, 58, 32,
  -- {"cpu": [%s],
    123, 34, 99, 112, 117, 34, 58, 32, 91, 37, 115, 93, 44, 32,
  -- "numa": [%s],
    34, 110, 117, 109, 97, 34, 58, 32, 91, 37, 115, 93, 44, 32,
  -- "gpu": [%s]}
    34, 103, 112, 117, 34, 58, 32, 91, 37, 115, 93, 125]

/-- What a format prints whose only conversions are `%s`. -/
def printfStrings : List UInt8 → List (List UInt8) → List UInt8
  | 37 :: 115 :: format, argument :: rest => stringFromchar argument ++ printfStrings format rest
  | byte :: format, arguments => byte :: printfStrings format arguments
  | [], _ => []

/-- `nrm_bitmap_to_string` of one of the maps, whose address is never NULL. -/
def mapString (garbage : Nat → Nat → UInt8) (map : Bitmap) : Except BufferFault (List UInt8) := do
  match ← Bitmap.toString garbage (some map) with
  | some rendering => .ok rendering.buffer
  | none => .ok []

/-- `nrm_scope_snprintf`: the return code and what is left in the buffer. -/
def scopeSnprintf (garbage : Nat → Nat → UInt8) (buf : List UInt8) (bufsize : Nat) (s : Scope) :
    Except BufferFault (Int × List UInt8) := do
  let cpu ← mapString garbage s.cpu
  let numa ← mapString garbage s.numa
  let gpu ← mapString garbage s.gpu
  let length := (stringFromchar cpu).length + (stringFromchar numa).length +
    (stringFromchar gpu).length
  -- the size of the format counts its NUL
  if bufsize < sizeT ((length : Int) + (scopeFormat.length + 1) - 6) then .ok (-1, buf)
  else
    let written ← snprintf buf 0 bufsize (printfStrings scopeFormat [s.uuid, cpu, numa, gpu])
    .ok (0, written)

def scopeText (s : Scope) : List UInt8 :=
  printfStrings scopeFormat [s.uuid, Bitmap.text s.cpu.indices, Bitmap.text s.numa.indices,
    Bitmap.text s.gpu.indices]

/-- The scope is printed whole or not at all, and it is printed if it fits. -/
def AllOrNothing (garbage : Nat → Nat → UInt8) (buf : List UInt8) (s : Scope) : Prop :=
  ∃ code after, scopeSnprintf garbage buf buf.length s = .ok (code, after) ∧
    (code = 0 ∨ code = -1) ∧ (code = 0 ↔ (scopeText s).length + 1 ≤ buf.length) ∧
    (code = 0 → scopeText s ++ [0] <+: after) ∧ (code = -1 → after = buf)

theorem printfStrings_length (uuid cpu numa gpu : List UInt8) :
    (printfStrings scopeFormat [uuid, cpu, numa, gpu]).length =
      42 + (stringFromchar uuid).length + (stringFromchar cpu).length +
        (stringFromchar numa).length + (stringFromchar gpu).length := by
  simp [scopeFormat, printfStrings]
  omega

theorem printfStrings_congr {uuid cpu numa gpu cpu' numa' gpu' : List UInt8}
    (sameCpu : stringFromchar cpu = stringFromchar cpu')
    (sameNuma : stringFromchar numa = stringFromchar numa')
    (sameGpu : stringFromchar gpu = stringFromchar gpu') :
    printfStrings scopeFormat [uuid, cpu, numa, gpu] =
      printfStrings scopeFormat [uuid, cpu', numa', gpu'] := by
  simp [scopeFormat, printfStrings, sameCpu, sameNuma, sameGpu]

theorem mapString_rendered {garbage : Nat → Nat → UInt8} {map : Bitmap}
    (rendered : Bitmap.Rendered garbage map) :
    ∃ chars, mapString garbage map = .ok chars ∧ stringFromchar chars = Bitmap.text map.indices := by
  obtain ⟨final, done, -, printed⟩ := rendered
  refine ⟨final.buffer, ?_, printed⟩
  simp only [mapString, done]
  rfl

def scopeLists (s : Scope) : Nat :=
  (Bitmap.text s.cpu.indices).length + (Bitmap.text s.numa.indices).length +
    (Bitmap.text s.gpu.indices).length

theorem scopeText_length (s : Scope) :
    (scopeText s).length = 42 + (stringFromchar s.uuid).length + scopeLists s := by
  rw [scopeText, printfStrings_length]
  simp only [stringFromchar_of_nulFree (Bitmap.text_nulFree _), scopeLists]
  omega

theorem text_indices_length_le (map : Bitmap) :
    (Bitmap.text map.indices).length ≤ 5 * bitmapMax :=
  Bitmap.text_short (fun _ => Bitmap.mem_indices_lt) (Bitmap.indices_length_le map)

/-- The format is counted with three of its four conversions, and the uuid not at
all, so the test is off by the length of the uuid less two. -/
theorem scopeSnprintf_eq {garbage : Nat → Nat → UInt8} (buf : List UInt8) (bufsize : Nat) {s : Scope}
    (cpu : Bitmap.Rendered garbage s.cpu) (numa : Bitmap.Rendered garbage s.numa)
    (gpu : Bitmap.Rendered garbage s.gpu) :
    scopeSnprintf garbage buf bufsize s =
      if bufsize < scopeLists s + 45 then .ok (-1, buf)
      else (do
        let written ← snprintf buf 0 bufsize (scopeText s)
        .ok (0, written)) := by
  obtain ⟨cpuChars, cpuDone, cpuText⟩ := mapString_rendered cpu
  obtain ⟨numaChars, numaDone, numaText⟩ := mapString_rendered numa
  obtain ⟨gpuChars, gpuDone, gpuText⟩ := mapString_rendered gpu
  have threshold : sizeT (((scopeLists s : Nat) : Int) + (scopeFormat.length + 1) - 6) =
      scopeLists s + 45 := by
    have cpuShort := text_indices_length_le s.cpu
    have numaShort := text_indices_length_le s.numa
    have gpuShort := text_indices_length_le s.gpu
    have format : scopeFormat.length = 50 := rfl
    unfold bitmapMax at cpuShort numaShort gpuShort
    unfold sizeT scopeLists
    omega
  have free (map : Bitmap) : stringFromchar (Bitmap.text map.indices) = Bitmap.text map.indices :=
    stringFromchar_of_nulFree (Bitmap.text_nulFree _)
  have printed : printfStrings scopeFormat [s.uuid, cpuChars, numaChars, gpuChars] = scopeText s :=
    printfStrings_congr (cpuText.trans (free _).symm) (numaText.trans (free _).symm)
      (gpuText.trans (free _).symm)
  simp only [scopeSnprintf, cpuDone, numaDone, gpuDone, bind, Except.bind, cpuText, numaText,
    gpuText, printed]
  rw [show (Bitmap.text s.cpu.indices).length + (Bitmap.text s.numa.indices).length +
    (Bitmap.text s.gpu.indices).length = scopeLists s from rfl, threshold]

/-- Between the size the test asks for and the size the text needs, whichever is
smaller, the function truncates or refuses; everywhere else it is right. -/
theorem all_or_nothing_iff (garbage : Nat → Nat → UInt8) (buf : List UInt8) (s : Scope)
    (cpu : Bitmap.Rendered garbage s.cpu) (numa : Bitmap.Rendered garbage s.numa)
    (gpu : Bitmap.Rendered garbage s.gpu) :
    AllOrNothing garbage buf s ↔
      ¬ (scopeLists s + 43 + min 2 (stringFromchar s.uuid).length ≤ buf.length ∧
        buf.length < scopeLists s + 43 + max 2 (stringFromchar s.uuid).length) := by
  have length := scopeText_length s
  have result := scopeSnprintf_eq buf buf.length cpu numa gpu
  by_cases refused : buf.length < scopeLists s + 45
  · rw [if_pos refused] at result
    constructor
    · intro whole
      obtain ⟨code, after, done, -, complete, -⟩ := whole
      cases result.symm.trans done
      have tooLong : ¬ (scopeText s).length + 1 ≤ buf.length := fun fits => by
        cases complete.mpr fits
      omega
    · intro outside
      have tooLong : ¬ (scopeText s).length + 1 ≤ buf.length := by omega
      exact ⟨-1, buf, result, .inr rfl, by simp [tooLong], by simp, by simp⟩
  · rw [if_neg refused] at result
    constructor
    · intro whole
      obtain ⟨code, after, done, -, complete, -⟩ := whole
      have printed : code = 0 := by
        rw [result] at done
        cases written : snprintf buf 0 buf.length (scopeText s) with
        | error fault => simp [written, bind, Except.bind] at done
        | ok chars =>
            simp only [written, bind, Except.bind, Except.ok.injEq, Prod.mk.injEq] at done
            exact done.1.symm
      have fits := complete.mp printed
      omega
    · intro outside
      have fits : (scopeText s).length < buf.length := by omega
      have written := snprintf_whole [] fits fits
      simp only [List.nil_append, List.length_nil] at written
      rw [written] at result
      refine ⟨0, _, result, .inl rfl, by simp [Nat.succ_le_of_lt fits], ?_, by simp⟩
      intro _
      exact ⟨buf.drop ((scopeText s).length + 1), by simp⟩

/-- What the loop makes of a list of indices. -/
def Bitmap.printed (garbage : Nat → Nat → UInt8) (items : List Nat) : Bool :=
  match items.foldlM (printIndex garbage) .start with
  | .ok final => !final.wrapped && decide (stringFromchar final.buffer = text items)
  | .error _ => false

theorem Bitmap.rendered_of_printed {garbage : Nat → Nat → UInt8} {map : Bitmap} {items : List Nat}
    (listed : map.indices = items) (check : printed garbage items = true) :
    Rendered garbage map := by
  unfold printed at check
  split at check
  · rename_i final run
    obtain ⟨unwrapped, whole⟩ := (Bool.and_eq_true ..).mp check
    refine ⟨final, toString_eq_ok.mpr (listed ▸ run), by simpa using unwrapped, ?_⟩
    rw [listed]
    exact of_decide_eq_true whole
  · cases check

theorem Bitmap.indices_eq {map : Bitmap} {items : List Nat} (increasing : items.Pairwise (· < ·))
    (inside : ∀ i ∈ items, i < bitmapMax)
    (listed : ∀ i, i < bitmapMax → (map.bit i = true ↔ i ∈ items)) : map.indices = items := by
  have sorted : map.indices.Pairwise (· < ·) := by
    rw [indices_eq_filter]
    exact List.Pairwise.sublist List.filter_sublist List.pairwise_lt_range
  apply sorted.eq_of_mem_iff increasing
  intro i
  rw [indices_eq_filter, List.mem_filter, List.mem_range]
  exact ⟨fun ⟨small, isSet⟩ => (listed i small).mp isSet,
    fun member => ⟨inside i member, (listed i (inside i member)).mpr member⟩⟩

theorem indices_reset : Bitmap.reset.indices = [] :=
  Bitmap.indices_eq .nil (by simp) (by simp [Bitmap.bit_reset])

theorem rendered_reset : Bitmap.Rendered (fun _ _ => 0) .reset :=
  Bitmap.rendered_of_printed indices_reset (by decide)

theorem scopeLists_create (name : List UInt8) : scopeLists (scopeCreate name) = 0 := by
  simp only [scopeLists, scopeCreate, indices_reset]
  rfl

theorem scopeText_create (name : List UInt8) :
    scopeText (scopeCreate name) = printfStrings scopeFormat [stringFromchar name, [], [], []] := by
  simp only [scopeText, scopeCreate, indices_reset]
  rfl

/-- The name `ab`, cpus 1 and 12, and memory node 0. -/
def printedScope : Scope :=
  ⟨[97, 98], (Bitmap.reset.set 1).2.set 12 |>.2, (Bitmap.reset.set 0).2, .reset⟩

/-- A name of two letters makes up for the wrong count. -/
theorem all_or_nothing_two_letters :
    AllOrNothing (fun _ _ => 0) (List.replicate 50 1) printedScope := by
  have cpus : printedScope.cpu.indices = [1, 12] :=
    Bitmap.indices_eq (by decide) (by decide) fun i small => by
      simp [printedScope, Bitmap.bit_set, Bitmap.bit_reset, small]
  have nodes : printedScope.numa.indices = [0] :=
    Bitmap.indices_eq (by decide) (by decide) fun i small => by
      simp [printedScope, Bitmap.bit_set, Bitmap.bit_reset, small]
  apply (all_or_nothing_iff _ _ printedScope (Bitmap.rendered_of_printed cpus (by decide +kernel))
    (Bitmap.rendered_of_printed nodes (by decide +kernel)) rendered_reset).mpr
  have lists : scopeLists printedScope = 5 := by
    rw [scopeLists, cpus, nodes, show printedScope.gpu.indices = [] from indices_reset]
    decide
  rw [lists]
  decide

/-- A longer one is cut without notice. -/
theorem long_name_truncated :
    Bitmap.Rendered (fun _ _ => 0) .reset ∧
      scopeSnprintf (fun _ _ => 0) (List.replicate 45 1) 45 (scopeCreate [97, 98, 99]) =
        .ok (0, (scopeText (scopeCreate [97, 98, 99])).take 44 ++ [0]) ∧
      ¬ AllOrNothing (fun _ _ => 0) (List.replicate 45 1) (scopeCreate [97, 98, 99]) := by
  have cut : scopeSnprintf (fun _ _ => 0) (List.replicate 45 1) 45 (scopeCreate [97, 98, 99]) =
      .ok (0, (scopeText (scopeCreate [97, 98, 99])).take 44 ++ [0]) := by
    rw [scopeSnprintf_eq _ _ rendered_reset rendered_reset rendered_reset, scopeLists_create,
      scopeText_create]
    decide +kernel
  refine ⟨rendered_reset, cut, ?_⟩
  intro whole
  obtain ⟨code, after, done, -, complete, -⟩ := whole
  have whole : (scopeText (scopeCreate [97, 98, 99])).length = 45 := by
    rw [scopeText_create]
    decide
  rw [List.length_replicate] at done
  cases cut.symm.trans done
  have fits := complete.mp rfl
  rw [List.length_replicate] at fits
  omega

end LibNrm
