import LibNrm.Utils.Bitmaps
import LibNrm.Data.Buffer
import Mathlib.Data.Nat.Log

namespace LibNrm

inductive BufferFault where
  /-- a byte is written behind the end of the buffer -/
  | outOfBounds
deriving DecidableEq, Repr

/-- The conversion of an integer to `size_t`. -/
def sizeT (value : Int) : Nat := (value % 2 ^ 64).toNat

/-- `log10f(i) >= k`.  The logarithm of zero is below every `k`. -/
def log10Ge (i k : Nat) : Bool := decide (i ≠ 0) && decide (k ≤ Nat.log 10 i)

/-- `%zd` -/
def decimal (i : Nat) : List UInt8 := (Nat.toDigits 10 i).map fun digit => UInt8.ofNat digit.toNat

/-- `snprintf`: at most `room` bytes are written, the last of them a NUL. -/
def snprintf (buffer : List UInt8) (cur room : Nat) (text : List UInt8) :
    Except BufferFault (List UInt8) :=
  if room = 0 then .ok buffer
  else
    match Data.splice buffer cur (text.take (room - 1) ++ [0]) with
    | some written => .ok written
    | none => .error .outOfBounds

namespace Bitmap

/-- The locals of `nrm_bitmap_to_string`; `cur` is an offset into the buffer, and
`bufsize` its length.  `wrapped` records that `bufsize - size` went below zero. -/
structure Rendering where
  buffer : List UInt8
  size : Nat
  cur : Nat
  printed : Nat
  wrapped : Bool
deriving DecidableEq, Repr

namespace Rendering

/-- The buffer as `calloc` leaves it, with space kept for the null byte. -/
def start : Rendering := ⟨List.replicate 256 0, 1, 0, 0, false⟩

/-- `bufsize - size` -/
def room (state : Rendering) : Nat := sizeT ((state.buffer.length : Int) - state.size)

/-- The `realloc` to twice the size, in place; `garbage` is what the new half holds. -/
def grow (garbage : Nat → Nat → UInt8) (state : Rendering) (i : Nat) : Rendering :=
  if log10Ge i state.room then
    let bufsize := state.buffer.length
    { state with buffer := state.buffer ++ (List.range bufsize).map (garbage bufsize) }
  else state

end Rendering

/-- What an index prints: the first one has no comma before it. -/
def item (printed i : Nat) : List UInt8 := if printed ≠ 0 then 44 :: decimal i else decimal i

/-- The body of the loop at a set bit. -/
def printIndex (garbage : Nat → Nat → UInt8) (state : Rendering) (i : Nat) :
    Except BufferFault Rendering := do
  let grown := state.grow garbage i
  let text := item state.printed i
  let buffer ← snprintf grown.buffer grown.cur grown.room text
  .ok
    { buffer
      size := sizeT ((state.size : Int) + text.length)
      cur := state.cur + text.length
      printed := state.printed + 1
      wrapped := state.wrapped || decide (state.buffer.length < state.size) }

/-- The loop of `nrm_bitmap_to_string` from index `i` on. -/
def toStringFrom (garbage : Nat → Nat → UInt8) (map : Bitmap) (nbits : Nat) :
    Nat → Nat → Rendering → Except BufferFault Rendering
  | 0, _, state => .ok state
  | fuel + 1, i, state =>
      if state.printed < nbits then
        if map.isset i ≠ 0 then do
          let next ← printIndex garbage state i
          toStringFrom garbage map nbits fuel (i + 1) next
        else toStringFrom garbage map nbits fuel (i + 1) state
      else .ok state

/-- `nrm_bitmap_to_string` up to its last statement, which returns the buffer.  Where the
source has the pointer `cur` this has an offset, so that a `realloc` which moves the block,
and leaves `cur` in the old one, is outside the model. -/
def toString (garbage : Nat → Nat → UInt8) : Option Bitmap → Except BufferFault (Option Rendering)
  | none => .ok none
  | some map => do
      let final ← toStringFrom garbage map map.nset bitmapMax 0 .start
      .ok (some final)

def indices (map : Bitmap) : List Nat := (List.range bitmapMax).filter fun i => map.isset i = 1

/-- Decimal numbers separated by single commas. -/
def text (items : List Nat) : List UInt8 := [44].intercalate (items.map decimal)

/-- Every write is inside the buffer, `bufsize - size` does not wrap, and the
string returned is the list of all indices. -/
def Rendered (garbage : Nat → Nat → UInt8) (map : Bitmap) : Prop :=
  ∃ final, toString garbage (some map) = .ok (some final) ∧ final.wrapped = false ∧
    stringFromchar final.buffer = text map.indices

/-- The digits of the indices, with one byte behind each of them. -/
def width (items : List Nat) : Nat := (items.map fun i => (Nat.toDigits 10 i).length + 1).sum

/-- No part of the list, from its first index on, ends right at a size the buffer
can have, or one byte behind it. -/
def Clear (items : List Nat) : Prop :=
  ∀ front, front <+: items → ∀ k, width front ≠ 256 * 2 ^ k ∧ width front ≠ 256 * 2 ^ k + 1

end Bitmap

theorem sizeT_natCast {value : Nat} (fits : value < 2 ^ 64) : sizeT value = value := by
  unfold sizeT
  omega

/-- The estimate counts the digits of an index, but neither the comma nor the NUL. -/
theorem log10Ge_iff (i k : Nat) : log10Ge i k = true ↔ i ≠ 0 ∧ k < (decimal i).length := by
  simp only [log10Ge, decimal, List.length_map, Bool.and_eq_true, decide_eq_true_eq]
  apply and_congr_right
  intro nonzero
  rw [Nat.le_log_iff_pow_le (by decide) nonzero]
  cases k with
  | zero =>
      have digits : 0 < (Nat.toDigits 10 i).length := Nat.length_toDigits_pos
      simp only [pow_zero, digits, iff_true]
      omega
  | succ k =>
      have bound := Nat.length_toDigits_le_iff (n := i) (k := k + 1) (by decide : 1 < 10) (by omega)
      omega

theorem decimal_length_le {i : Nat} (inside : i < bitmapMax) : (decimal i).length ≤ 4 := by
  rw [decimal, List.length_map, Nat.length_toDigits_le_iff (by decide) (by decide)]
  unfold bitmapMax at inside
  omega

theorem decimal_nulFree (i : Nat) : NulFree (decimal i) := by
  intro member
  obtain ⟨digit, listed, zero⟩ := List.mem_map.mp member
  have isDigit := Nat.isDigit_of_mem_toDigits (by decide) (by decide) listed
  have range : 48 ≤ digit.toNat ∧ digit.toNat ≤ 57 := Char.isDigit_iff_toNat.mp isDigit
  have same := congrArg UInt8.toNat zero
  rw [UInt8.toNat_ofNat', UInt8.toNat_zero] at same
  omega

namespace Bitmap

theorem item_length (printed i : Nat) :
    (item printed i).length = (decimal i).length + if printed ≠ 0 then 1 else 0 := by
  unfold item
  split <;> simp

theorem item_length_le (printed : Nat) {i : Nat} (inside : i < bitmapMax) :
    (item printed i).length ≤ 5 := by
  have digits := decimal_length_le inside
  rw [item_length]
  split <;> omega

theorem item_nulFree (printed i : Nat) : NulFree (item printed i) := by
  have digits := decimal_nulFree i
  unfold NulFree at digits ⊢
  unfold item
  split <;> simp [digits]

theorem text_snoc (items : List Nat) (i : Nat) :
    text (items ++ [i]) = text items ++ item items.length i := by
  unfold text item
  rw [List.map_append]
  by_cases empty : items = []
  · simp [empty]
  · rw [List.map_singleton, Data.intercalate_snoc _ _ (by simpa using empty)]
    simp [empty]

theorem text_snoc_length (items : List Nat) (i : Nat) :
    (text (items ++ [i])).length = (text items).length + (item items.length i).length := by
  rw [text_snoc, List.length_append]

theorem text_nulFree (items : List Nat) : NulFree (text items) := by
  induction items using List.reverseRecOn with
  | nil => simp [text, NulFree]
  | append_singleton items i ih =>
      rw [text_snoc]
      intro member
      rcases List.mem_append.mp member with before | last
      · exact ih before
      · exact item_nulFree _ _ last

theorem width_snoc (items : List Nat) (i : Nat) :
    width (items ++ [i]) = width items + (decimal i).length + 1 := by
  simp [width, decimal, Nat.add_assoc]

theorem text_length_succ {items : List Nat} (nonempty : items ≠ []) :
    (text items).length + 1 = width items := by
  induction items using List.reverseRecOn with
  | nil => exact absurd rfl nonempty
  | append_singleton items i ih =>
      rw [text_snoc_length, width_snoc, item_length]
      by_cases empty : items = []
      · simp [empty, text, width]
      · have before := ih empty
        simp only [ne_eq, List.length_eq_zero_iff, empty, not_false_eq_true, ↓reduceIte]
        omega

theorem text_length_le {items : List Nat} (inside : ∀ i ∈ items, i < bitmapMax) :
    (text items).length ≤ 5 * items.length := by
  induction items using List.reverseRecOn with
  | nil => simp [text]
  | append_singleton items i ih =>
      have before := ih fun j member => inside j (List.mem_append_left _ member)
      have last := item_length_le items.length (inside i (by simp))
      rw [text_snoc_length, List.length_append, List.length_singleton]
      omega

end Bitmap

theorem stringFromchar_length_le {chars : List UInt8} {p : Nat} (terminated : chars[p]? = some 0) :
    (stringFromchar chars).length ≤ p := by
  by_contra longer
  obtain ⟨rest, whole⟩ := List.takeWhile_prefix (l := chars) (fun byte => byte != 0)
  have inside : p < (stringFromchar chars).length := Nat.lt_of_not_le longer
  have kept : (stringFromchar chars ++ rest)[p]? = (stringFromchar chars)[p]? :=
    List.getElem?_append_left inside
  have same : stringFromchar chars ++ rest = chars := whole
  rw [same, terminated] at kept
  exact stringFromchar_nulFree chars (List.mem_of_getElem? kept.symm)

theorem stringFromchar_terminated {chars : List UInt8} (free : NulFree chars) (back : List UInt8) :
    stringFromchar (chars ++ 0 :: back) = chars := by
  have nonzero : ∀ byte ∈ chars, (byte != 0) = true := by
    intro byte member
    have different : byte ≠ 0 := fun zero => free (zero ▸ member)
    simpa using different
  rw [stringFromchar, List.takeWhile_append_of_pos nonzero]
  simp

theorem snprintf_whole (front : List UInt8) {back text : List UInt8} {room : Nat}
    (small : text.length < room) (fits : text.length < back.length) :
    snprintf (front ++ back) front.length room text =
      .ok (front ++ text ++ 0 :: back.drop (text.length + 1)) := by
  have whole : text.take (room - 1) = text := List.take_of_length_le (by omega)
  have inside : (text ++ [0]).length ≤ back.length := by
    rw [List.length_append, List.length_singleton]
    omega
  rw [snprintf, if_neg (by omega), whole, Data.splice_append front inside]
  simp

theorem snprintf_before {buffer text after : List UInt8} {cur room p : Nat}
    (written : snprintf buffer cur room text = .ok after) (before : p < cur) :
    after[p]? = buffer[p]? := by
  unfold snprintf at written
  split at written
  · cases written
    rfl
  · split at written
    · rename_i spliced
      cases written
      exact Data.splice_getElem? spliced before
    · cases written

theorem snprintf_cut {buffer text after : List UInt8} {cur room : Nat}
    (written : snprintf buffer cur room text = .ok after) (positive : 0 < room)
    (long : room ≤ text.length + 1) : after[cur + (room - 1)]? = some 0 := by
  have taken : (text.take (room - 1)).length = room - 1 := by
    rw [List.length_take]
    omega
  rw [snprintf, if_neg (by omega)] at written
  split at written
  · rename_i spliced
    cases written
    obtain ⟨inside, rfl⟩ := Data.splice_eq_some spliced
    have kept : (buffer.take cur).length = cur := by
      rw [List.length_take]
      omega
    rw [List.append_assoc, List.getElem?_append_right (by omega), kept, Nat.add_sub_cancel_left,
      List.append_assoc, List.getElem?_append_right (by omega), taken, Nat.sub_self]
    rfl
  · cases written

namespace Bitmap

theorem Rendering.room_eq {state : Rendering} (inside : state.size ≤ state.buffer.length)
    (fits : state.buffer.length < 2 ^ 64) : state.room = state.buffer.length - state.size := by
  unfold Rendering.room sizeT
  omega

theorem printIndex_eq_ok {garbage : Nat → Nat → UInt8} {state next : Rendering} {i : Nat} :
    printIndex garbage state i = .ok next ↔
      ∃ buffer, snprintf (state.grow garbage i).buffer (state.grow garbage i).cur
          (state.grow garbage i).room (item state.printed i) = .ok buffer ∧
        next =
          { buffer
            size := sizeT ((state.size : Int) + (item state.printed i).length)
            cur := state.cur + (item state.printed i).length
            printed := state.printed + 1
            wrapped := state.wrapped || decide (state.buffer.length < state.size) } := by
  cases written : snprintf (state.grow garbage i).buffer (state.grow garbage i).cur
      (state.grow garbage i).room (item state.printed i) with
  | error fault => simp [printIndex, written, bind, Except.bind]
  | ok buffer => simp [printIndex, written, bind, Except.bind, eq_comm]

@[simp] theorem Rendering.grow_cur (garbage : Nat → Nat → UInt8) (state : Rendering) (i : Nat) :
    (state.grow garbage i).cur = state.cur := by
  unfold Rendering.grow
  split <;> rfl

@[simp] theorem Rendering.grow_size (garbage : Nat → Nat → UInt8) (state : Rendering) (i : Nat) :
    (state.grow garbage i).size = state.size := by
  unfold Rendering.grow
  split <;> rfl

theorem Rendering.grow_buffer (garbage : Nat → Nat → UInt8) (state : Rendering) (i : Nat) :
    ∃ added, (state.grow garbage i).buffer = state.buffer ++ added ∧
      added.length = if log10Ge i state.room then state.buffer.length else 0 := by
  unfold Rendering.grow
  split
  · exact ⟨_, rfl, by simp⟩
  · exact ⟨[], by simp, rfl⟩

/-- A size the buffer has while it holds so much text: 256 doubled, and not once more
than the text calls for. -/
def Capacity (length needed : Nat) : Prop :=
  ∃ k, length = 256 * 2 ^ k ∧ (k = 0 ∨ length < 2 * needed)

theorem Capacity.small {length needed : Nat} (capacity : Capacity length needed)
    (short : needed ≤ 5 * bitmapMax + 5) : length < 2 ^ 64 := by
  obtain ⟨k, rfl, least⟩ := capacity
  unfold bitmapMax at short
  rcases least with rfl | least <;> omega

/-- The state after printing all of `items`, with room for one more byte than they need. -/
structure Fits (items : List Nat) (state : Rendering) : Prop where
  size : state.size = (text items).length + 1
  cur : state.cur = (text items).length
  printed : state.printed = items.length
  unwrapped : state.wrapped = false
  content : ∃ back, state.buffer = text items ++ 0 :: back
  space : (text items).length + 2 ≤ state.buffer.length
  capacity : Capacity state.buffer.length (text items).length

theorem Rendering.start_length : Rendering.start.buffer.length = 256 := List.length_replicate

theorem Fits.start : Fits [] .start where
  size := rfl
  cur := rfl
  printed := rfl
  unwrapped := rfl
  content := ⟨List.replicate 255 0, by rw [Rendering.start, List.replicate_succ]; rfl⟩
  space := by simp [Rendering.start_length, text]
  capacity := ⟨0, by simp [Rendering.start_length], .inl rfl⟩

/-- The lengths at which a text is cut: a size of the buffer, or one byte less. -/
def Edge (length : Nat) : Prop := ∃ k, length = 256 * 2 ^ k ∨ length + 1 = 256 * 2 ^ k

section

variable {garbage : Nat → Nat → UInt8} {items : List Nat} {state next : Rendering} {i : Nat}

theorem Fits.room_eq (fits : Fits items state) (short : (text items).length ≤ 5 * bitmapMax) :
    state.room = state.buffer.length - ((text items).length + 1) := by
  have space := fits.space
  have size := fits.size
  rw [Rendering.room_eq (by omega) (fits.capacity.small (by omega)), size]

/-- The buffer grows exactly when the text would run over its last byte. -/
theorem Fits.grows_iff (fits : Fits items state) (short : (text items).length ≤ 5 * bitmapMax)
    (inside : i < bitmapMax) :
    log10Ge i state.room = true ↔ state.buffer.length < (text (items ++ [i])).length := by
  have space := fits.space
  have digits := decimal_length_le inside
  obtain ⟨k, length, least⟩ := fits.capacity
  have positive : 0 < 2 ^ k := Nat.two_pow_pos k
  rw [log10Ge_iff, fits.room_eq short, text_snoc_length, item_length]
  by_cases empty : items = []
  · subst empty
    simp only [text, List.map_nil, List.intercalate_nil, List.length_nil] at *
    simp only [ne_eq, not_true_eq_false, ↓reduceIte]
    omega
  · simp only [ne_eq, List.length_eq_zero_iff, empty, not_false_eq_true, ↓reduceIte]
    by_cases zero : i = 0
    · subst zero
      have single : (decimal 0).length = 1 := by decide
      omega
    · omega

/-- A text that ends at some size of the buffer ends at the one it has. -/
theorem Fits.edge_iff (fits : Fits items state) (inside : i < bitmapMax) :
    Edge (text (items ++ [i])).length ↔
      (text (items ++ [i])).length = state.buffer.length ∨
        (text (items ++ [i])).length + 1 = state.buffer.length := by
  have space := fits.space
  have added := item_length_le items.length inside
  obtain ⟨j, length, least⟩ := fits.capacity
  have positive : 0 < 2 ^ j := Nat.two_pow_pos j
  rw [text_snoc_length]
  constructor
  · rintro ⟨k, edge⟩
    have above : 2 ^ k < 2 ^ (j + 1) := by
      rw [Nat.pow_succ]
      omega
    have below : j = 0 ∨ 2 ^ j < 2 ^ (k + 1) := by
      rw [Nat.pow_succ]
      omega
    rw [Nat.pow_lt_pow_iff_right (by decide)] at above below
    have same : k = j := by omega
    subst same
    omega
  · intro atEnd
    exact ⟨j, by omega⟩

theorem Fits.grown (fits : Fits items state) (garbage : Nat → Nat → UInt8)
    (short : (text items).length ≤ 5 * bitmapMax) (inside : i < bitmapMax)
    (clear : ¬ Edge (text (items ++ [i])).length) :
    ∃ back, (state.grow garbage i).buffer = text items ++ back ∧
      (text (items ++ [i])).length + 2 ≤ (state.grow garbage i).buffer.length ∧
      Capacity (state.grow garbage i).buffer.length (text (items ++ [i])).length := by
  have space := fits.space
  have more := item_length_le items.length inside
  have grows := fits.grows_iff short inside
  obtain ⟨back, content⟩ := fits.content
  obtain ⟨k, length, least⟩ := fits.capacity
  obtain ⟨added, buffer, addedLength⟩ := state.grow_buffer garbage i
  have total : (state.grow garbage i).buffer.length = state.buffer.length + added.length := by
    rw [buffer, List.length_append]
  have positive : 0 < 2 ^ k := Nat.two_pow_pos k
  rw [fits.edge_iff inside] at clear
  have longer := text_snoc_length items i
  refine ⟨0 :: back ++ added, by rw [buffer, content, List.append_assoc], ?_⟩
  rw [total]
  by_cases grow : log10Ge i state.room = true
  · have beyond := grows.mp grow
    rw [if_pos grow] at addedLength
    refine ⟨by omega, k + 1, ?_, .inr (by omega)⟩
    rw [Nat.pow_succ]
    omega
  · have within : ¬ state.buffer.length < (text (items ++ [i])).length := fun beyond =>
      grow (grows.mpr beyond)
    rw [if_neg grow] at addedLength
    exact ⟨by omega, k, by omega, by omega⟩

theorem Fits.written (fits : Fits items state) (short : (text items).length ≤ 5 * bitmapMax)
    (inside : i < bitmapMax) {grown : Rendering} {back : List UInt8}
    (buffer : grown.buffer = text items ++ back) (size : grown.size = state.size)
    (space : (text (items ++ [i])).length + 2 ≤ grown.buffer.length)
    (capacity : Capacity grown.buffer.length (text (items ++ [i])).length) :
    ∃ rest, snprintf grown.buffer (text items).length grown.room (item items.length i) =
        .ok (text (items ++ [i]) ++ 0 :: rest) ∧
      (text (items ++ [i]) ++ 0 :: rest).length = grown.buffer.length := by
  have more := item_length_le items.length inside
  have longer := text_snoc_length items i
  have total : grown.buffer.length = (text items).length + back.length := by
    rw [buffer, List.length_append]
  have bounded : grown.buffer.length < 2 ^ 64 := capacity.small (by omega)
  have room : grown.room = back.length - 1 := by
    rw [Rendering.room_eq (by rw [size, fits.size]; omega) bounded, size, fits.size]
    omega
  refine ⟨back.drop ((item items.length i).length + 1), ?_, ?_⟩
  · rw [room, buffer, text_snoc]
    exact snprintf_whole (text items) (by omega) (by omega)
  · rw [List.length_append, List.length_cons, List.length_drop]
    omega

theorem Fits.snoc (fits : Fits items state) (garbage : Nat → Nat → UInt8)
    (short : (text items).length ≤ 5 * bitmapMax) (inside : i < bitmapMax)
    (clear : ¬ Edge (text (items ++ [i])).length) :
    ∃ next, printIndex garbage state i = .ok next ∧ Fits (items ++ [i]) next := by
  have longer := text_snoc_length items i
  have more := item_length_le items.length inside
  obtain ⟨back, buffer, space, capacity⟩ := fits.grown garbage short inside clear
  obtain ⟨rest, written, kept⟩ :=
    fits.written short inside buffer (state.grow_size garbage i) space capacity
  have sized : sizeT ((state.size : Int) + (item state.printed i).length) =
      (text (items ++ [i])).length + 1 := by
    unfold bitmapMax at short
    rw [fits.printed, fits.size, longer, ← Int.natCast_add, sizeT_natCast (by omega)]
    omega
  rw [← fits.cur, ← state.grow_cur garbage i, ← fits.printed] at written
  refine ⟨_, printIndex_eq_ok.mpr ⟨_, written, rfl⟩, ?_⟩
  exact
    { size := sized
      cur := by rw [fits.printed, fits.cur, longer]
      printed := by rw [fits.printed, List.length_append, List.length_singleton]
      unwrapped := by
        have before := fits.space
        have size := fits.size
        simp only [fits.unwrapped, Bool.false_or, decide_eq_false_iff_not]
        omega
      content := ⟨rest, rfl⟩
      space := kept ▸ space
      capacity := kept ▸ capacity }

/-- The string in the buffer ends before the text does, at a NUL that no later
item reaches. -/
def Cut (items : List Nat) (state : Rendering) : Prop :=
  ∃ p, state.buffer[p]? = some 0 ∧ p < state.cur ∧ p < (text items).length

/-- A text that ends at the end of the buffer loses its last byte or two. -/
theorem Fits.cut (fits : Fits items state) (short : (text items).length ≤ 5 * bitmapMax)
    (inside : i < bitmapMax) (edge : Edge (text (items ++ [i])).length)
    (done : printIndex garbage state i = .ok next) : Cut (items ++ [i]) next := by
  have space := fits.space
  have longer := text_snoc_length items i
  rw [fits.edge_iff inside] at edge
  have steady : ¬ log10Ge i state.room = true := by
    rw [fits.grows_iff short inside]
    omega
  have kept : state.grow garbage i = state := if_neg steady
  obtain ⟨buffer, written, rfl⟩ := printIndex_eq_ok.mp done
  rw [kept, fits.cur, fits.printed, fits.room_eq short] at written
  have terminated := snprintf_cut written (by omega) (by omega)
  have advanced : state.cur + (item state.printed i).length = (text (items ++ [i])).length := by
    rw [fits.printed, fits.cur, longer]
  refine ⟨_, terminated, ?_, by omega⟩
  change _ < state.cur + (item state.printed i).length
  omega

theorem Cut.snoc (cut : Cut items state) (done : printIndex garbage state i = .ok next) :
    Cut (items ++ [i]) next := by
  obtain ⟨p, terminated, before, shorter⟩ := cut
  obtain ⟨buffer, written, rfl⟩ := printIndex_eq_ok.mp done
  obtain ⟨added, grown, -⟩ := state.grow_buffer garbage i
  have inside : p < state.buffer.length := (List.getElem?_eq_some_iff.mp terminated).1
  refine ⟨p, ?_, ?_, ?_⟩
  · rw [Rendering.grow_cur] at written
    rw [snprintf_before written before, grown, List.getElem?_append_left inside, terminated]
  · exact Nat.lt_add_right _ before
  · rw [text_snoc_length]
    exact Nat.lt_add_right _ shorter

theorem text_short (inside : ∀ i ∈ items, i < bitmapMax) (few : items.length ≤ bitmapMax) :
    (text items).length ≤ 5 * bitmapMax := by
  have length := text_length_le inside
  omega

theorem run_snoc : (items ++ [i]).foldlM (printIndex garbage) .start = .ok next ↔
    ∃ state, items.foldlM (printIndex garbage) .start = .ok state ∧
      printIndex garbage state i = .ok next := by
  rw [List.foldlM_append]
  simp only [List.foldlM_cons, List.foldlM_nil, bind_pure]
  cases items.foldlM (printIndex garbage) .start with
  | error fault => simp [bind, Except.bind]
  | ok state => simp [bind, Except.bind]

/-- As long as no text ends at the end of the buffer, all of it is there. -/
theorem run_fits (garbage : Nat → Nat → UInt8) (inside : ∀ i ∈ items, i < bitmapMax)
    (few : items.length ≤ bitmapMax)
    (clear : ∀ front, front <+: items → ¬ Edge (text front).length) :
    ∃ final, items.foldlM (printIndex garbage) .start = .ok final ∧ Fits items final := by
  induction items using List.reverseRecOn with
  | nil => exact ⟨.start, rfl, .start⟩
  | append_singleton items i ih =>
      have fewer : items.length ≤ bitmapMax := by
        rw [List.length_append, List.length_singleton] at few
        omega
      have insideItems : ∀ j ∈ items, j < bitmapMax := fun j member =>
        inside j (List.mem_append_left _ member)
      obtain ⟨state, run, fits⟩ := ih insideItems fewer fun front part =>
        clear front (part.trans (List.prefix_append items [i]))
      obtain ⟨next, step, fitsNext⟩ := fits.snoc garbage
        (text_short insideItems fewer) (inside i (by simp)) (clear _ List.prefix_rfl)
      exact ⟨next, run_snoc.mpr ⟨state, run, step⟩, fitsNext⟩

/-- After the first text that does, the string is cut for good. -/
theorem run_cut {final : Rendering} (inside : ∀ i ∈ items, i < bitmapMax)
    (few : items.length ≤ bitmapMax) (edge : ∃ front, front <+: items ∧ Edge (text front).length)
    (run : items.foldlM (printIndex garbage) .start = .ok final) : Cut items final := by
  induction items using List.reverseRecOn generalizing final with
  | nil =>
      obtain ⟨front, part, k, atEnd⟩ := edge
      have positive : 0 < 2 ^ k := Nat.two_pow_pos k
      rw [List.prefix_nil.mp part] at atEnd
      simp only [text, List.map_nil, List.intercalate_nil, List.length_nil] at atEnd
      omega
  | append_singleton items i ih =>
      have fewer : items.length ≤ bitmapMax := by
        rw [List.length_append, List.length_singleton] at few
        omega
      have insideItems : ∀ j ∈ items, j < bitmapMax := fun j member =>
        inside j (List.mem_append_left _ member)
      obtain ⟨state, before, step⟩ := run_snoc.mp run
      by_cases earlier : ∃ front, front <+: items ∧ Edge (text front).length
      · exact (ih insideItems fewer earlier before).snoc step
      · -- so it is this item that brings the text to the end of the buffer
        push Not at earlier
        obtain ⟨same, again, fits⟩ := run_fits garbage insideItems fewer earlier
        rw [before] at again
        cases again
        obtain ⟨front, part, atEnd⟩ := edge
        rcases List.prefix_concat_iff.mp part with whole | part
        · exact fits.cut (text_short insideItems fewer) (inside i (by simp)) (whole ▸ atEnd) step
        · exact absurd atEnd (earlier front part)

end

theorem printIndex_printed {garbage : Nat → Nat → UInt8} {state next : Rendering} {i : Nat}
    (done : printIndex garbage state i = .ok next) : next.printed = state.printed + 1 := by
  obtain ⟨buffer, -, rfl⟩ := printIndex_eq_ok.mp done
  rfl

theorem toStringFrom_eq_foldlM (garbage : Nat → Nat → UInt8) (map : Bitmap) (nbits fuel i : Nat)
    (state : Rendering) :
    toStringFrom garbage map nbits fuel i state =
      ((toArrayFrom map nbits fuel i state.printed).map Int.toNat).foldlM (printIndex garbage)
        state := by
  induction fuel generalizing i state with
  | zero => rfl
  | succ fuel ih =>
      rw [toStringFrom, toArrayFrom]
      split
      · split
        · rw [List.map_cons, Int.toNat_natCast, List.foldlM_cons]
          cases done : printIndex garbage state i with
          | error fault => rfl
          | ok next =>
              rw [← printIndex_printed done]
              exact ih (i + 1) next
        · exact ih (i + 1) state
      · rfl

theorem indices_eq_filter (map : Bitmap) :
    map.indices = (List.range bitmapMax).filter fun i => map.bit i := by
  apply List.filter_congr
  intro i _
  rw [Bool.eq_iff_iff, decide_eq_true_eq, isset_eq_one_iff]

theorem toString_eq_ok {garbage : Nat → Nat → UInt8} {map : Bitmap} {final : Rendering} :
    toString garbage (some map) = .ok (some final) ↔
      map.indices.foldlM (printIndex garbage) .start = .ok final := by
  have listed : (toArrayFrom map map.nset bitmapMax 0 0).map Int.toNat = map.indices := by
    rw [toArrayFrom_nset, indices_eq_filter, List.map_map]
    exact List.map_id _
  have loop := toStringFrom_eq_foldlM garbage map map.nset bitmapMax 0 .start
  rw [show Rendering.start.printed = 0 from rfl, listed] at loop
  rw [toString, loop]
  cases map.indices.foldlM (printIndex garbage) .start with
  | error fault => simp [bind, Except.bind]
  | ok state => simp [bind, Except.bind]

theorem mem_indices_lt {map : Bitmap} {i : Nat} (member : i ∈ map.indices) : i < bitmapMax :=
  List.mem_range.mp (List.mem_filter.mp member).1

theorem indices_length_le (map : Bitmap) : map.indices.length ≤ bitmapMax := by
  have filtered := List.length_filter_le (fun i => decide (map.isset i = 1)) (List.range bitmapMax)
  rw [List.length_range] at filtered
  exact filtered

theorem edge_iff_width (front : List Nat) :
    Edge (text front).length ↔ ∃ k, width front = 256 * 2 ^ k ∨ width front = 256 * 2 ^ k + 1 := by
  unfold Edge
  apply exists_congr
  intro k
  have positive : 0 < 2 ^ k := Nat.two_pow_pos k
  by_cases empty : front = []
  · simp only [empty, text, width, List.map_nil, List.intercalate_nil, List.length_nil, List.sum_nil]
    omega
  · have length := text_length_succ empty
    omega

theorem clear_iff (items : List Nat) :
    Clear items ↔ ∀ front, front <+: items → ¬ Edge (text front).length := by
  simp only [Clear, edge_iff_width, not_exists, not_or]

/-- The rendering is right exactly when no part of it ends at a size of the buffer. -/
theorem rendered_iff_clear (garbage : Nat → Nat → UInt8) (map : Bitmap) :
    Rendered garbage map ↔ Clear map.indices := by
  have inside : ∀ i ∈ map.indices, i < bitmapMax := fun i => mem_indices_lt
  have few := indices_length_le map
  unfold Rendered
  simp only [toString_eq_ok]
  rw [clear_iff]
  constructor
  · rintro ⟨final, run, -, printed⟩ front part edge
    obtain ⟨p, terminated, -, shorter⟩ := run_cut inside few ⟨front, part, edge⟩ run
    have length := stringFromchar_length_le terminated
    rw [printed] at length
    omega
  · intro clear
    obtain ⟨final, run, fits⟩ := run_fits garbage inside few clear
    obtain ⟨back, content⟩ := fits.content
    refine ⟨final, run, fits.unwrapped, ?_⟩
    rw [content, stringFromchar_terminated (text_nulFree _)]

/-- The indices from 0 to 89: the last but one is cut, and the last one is written
behind the buffer. -/
theorem ninety_indices_overrun :
    ¬ Rendered (fun _ _ => 0) (fromArray ((List.range 90).map Int.ofNat)) := by
  have overrun : toString (fun _ _ => 0) (some (fromArray ((List.range 90).map Int.ofNat))) =
      .error .outOfBounds := by
    decide +kernel
  rintro ⟨final, done, -, -⟩
  rw [overrun] at done
  cases done

end Bitmap

end LibNrm
