import Mathlib.Data.List.Forall2
import Mathlib.Data.List.TakeWhile
import Mathlib.Data.Int.ModEq
import Mathlib.Tactic.NormNum
import Mathlib.Tactic.Linarith

namespace LibNrm

/-! The C functions are embedded as functions into `Exec`.  A fault is a point where
the C program leaves defined behaviour; a function that merely reports an error
returns its negative code as the source does.
-/

inductive Fault where
  /-- a NULL pointer is followed -/
  | nullDereference
  /-- an `assert` fails -/
  | assertionFailed
  /-- a union member of one kind is read as another kind -/
  | wrongMember
  /-- a pointer to memory already freed, or to no object, is followed -/
  | danglingPointer
  /-- memory past the end of the stack is read -/
  | unmapped
deriving DecidableEq, Repr

abbrev Exec (α : Type) := Except Fault α

/-- A computation that ends without a fault. -/
def Exec.Completes (computation : Exec α) : Prop := ∃ result, computation = .ok result

theorem Exec.bind_eq_ok {first : Exec α} {next : α → Exec β} {result : β} :
    (first >>= next) = .ok result ↔ ∃ value, first = .ok value ∧ next value = .ok result := by
  cases first with
  | error fault => simp [bind, Except.bind]
  | ok value => simp [bind, Except.bind]

@[simp] theorem Exec.ok_bind (value : α) (next : α → Exec β) :
    ((Except.ok value : Exec α) >>= next) = next value := rfl

@[simp] theorem Exec.error_bind (fault : Fault) (next : α → Exec β) :
    ((Except.error fault : Exec α) >>= next) = .error fault := rfl

@[simp] theorem Exec.pure_eq_ok (value : α) : (pure value : Exec α) = .ok value := rfl

@[simp] theorem Exec.completes_ok (value : α) : Exec.Completes (.ok value : Exec α) := ⟨value, rfl⟩

@[simp] theorem Exec.not_completes_error (fault : Fault) :
    ¬ Exec.Completes (.error fault : Exec α) := by
  rintro ⟨result, equal⟩
  cases equal

theorem Exec.completes_bind {first : Exec α} {next : α → Exec β} :
    Exec.Completes (first >>= next) ↔ ∃ value, first = .ok value ∧ Exec.Completes (next value) := by
  cases first with
  | error fault => simp
  | ok value => simp

theorem Exec.mapM_ok {items : List α} {body : α → Exec β} {related : α → β → Prop}
    (each : ∀ item ∈ items, ∃ result, body item = .ok result ∧ related item result) :
    ∃ results, items.mapM body = .ok results ∧ List.Forall₂ related items results := by
  induction items with
  | nil => exact ⟨[], rfl, .nil⟩
  | cons item rest ih =>
      obtain ⟨result, done, holds⟩ := each item List.mem_cons_self
      obtain ⟨results, later, others⟩ :=
        ih fun item member => each item (List.mem_cons_of_mem _ member)
      refine ⟨result :: results, ?_, .cons holds others⟩
      simp only [List.mapM_cons, done, later, Exec.ok_bind, Exec.pure_eq_ok]

theorem forall_mem_of_forall₂ {items : List α} {results : List β} {good : β → Prop}
    (each : List.Forall₂ (fun _ result => good result) items results) :
    ∀ result ∈ results, good result := by
  induction each with
  | nil => exact fun _ => nofun
  | cons holds _ ih =>
      intro result member
      obtain rfl | later := List.mem_cons.mp member
      · exact holds
      · exact ih result later

/-- Follow a pointer. -/
def deref : Option α → Exec α
  | some value => .ok value
  | none => .error .nullDereference

@[simp] theorem deref_some (value : α) : deref (some value) = .ok value := rfl

@[simp] theorem deref_none : deref (none : Option α) = .error .nullDereference := rfl

theorem deref_eq_ok {pointer : Option α} {value : α} :
    deref pointer = .ok value ↔ pointer = some value := by
  cases pointer <;> simp

/-- `assert(condition)` -/
def assert (condition : Bool) : Exec Unit :=
  if condition then .ok () else .error .assertionFailed

@[simp] theorem assert_true : assert true = .ok () := rfl

@[simp] theorem assert_false : assert false = .error .assertionFailed := rfl

-- the error codes of `nrm/utils/error.h`, which are returned negated
def nrmSuccess : Int := 0
def nrmFailure : Int := 1
def nrmEnomem : Int := 2
def nrmEinval : Int := 3
def nrmEdom : Int := 4
def nrmEnotfound : Int := 8

/-- What keeps a C function from returning. -/
inductive Halt where
  | fault (fault : Fault)
  | exit (status : Int)
  /-- a loop that never ends -/
  | diverges
deriving DecidableEq, Repr

abbrev Proc (α : Type) := Except Halt α

@[simp] theorem Proc.ok_bind (value : α) (next : α → Proc β) :
    ((Except.ok value : Proc α) >>= next) = next value := rfl

@[simp] theorem Proc.error_bind (halt : Halt) (next : α → Proc β) :
    ((Except.error halt : Proc α) >>= next) = .error halt := rfl

@[simp] theorem Proc.pure_eq_ok (value : α) : (pure value : Proc α) = .ok value := rfl

/-- A fault ends the process. -/
def Exec.toProc : Exec α → Proc α
  | .ok value => .ok value
  | .error fault => .error (.fault fault)

/-- An `nrm_string_t`: the `slen` bytes it records, which may contain NUL when
it was made from a buffer. -/
abbrev NrmString := List UInt8

/-- A string without a NUL byte, the only kind a `char *` can carry whole. -/
def NulFree (string : NrmString) : Prop := (0 : UInt8) ∉ string

instance (string : NrmString) : Decidable (NulFree string) :=
  inferInstanceAs (Decidable ((0 : UInt8) ∉ string))

/-- `nrm_string_fromchar`: what a reader of a `char *` sees, the bytes before the first NUL. -/
def stringFromchar (chars : List UInt8) : NrmString := chars.takeWhile (fun byte => byte != 0)

/-- `nrm_string_frombuf` copies the buffer whatever it contains. -/
def stringFrombuf (buffer : List UInt8) : NrmString := buffer

theorem stringFromchar_nulFree (chars : List UInt8) : NulFree (stringFromchar chars) := by
  intro member
  have kept := List.mem_takeWhile_imp member
  simp at kept

theorem stringFromchar_of_nulFree {chars : List UInt8} (free : NulFree chars) :
    stringFromchar chars = chars := by
  unfold stringFromchar
  rw [List.takeWhile_eq_self_iff]
  intro byte member
  have nonzero : byte ≠ 0 := fun zero => free (zero ▸ member)
  simpa using nonzero

@[simp] theorem stringFromchar_idem (chars : List UInt8) :
    stringFromchar (stringFromchar chars) = stringFromchar chars :=
  stringFromchar_of_nulFree (stringFromchar_nulFree chars)

/-- Two's complement reading of an integer as `int64_t`. -/
def int64 (value : Int) : Int := Int.bmod value (2 ^ 64)

theorem int64_of_fits {value : Int} (lower : -(2 ^ 63) ≤ value) (upper : value < 2 ^ 63) :
    int64 value = value := by
  unfold int64
  exact Int.bmod_eq_of_le (by omega) (by omega)

/-- `nrm_time_t`, a `struct timespec`. -/
structure NrmTime where
  tvSec : Int
  tvNsec : Int
deriving DecidableEq, Repr

namespace NrmTime

/-- `nrm_time_tons` -/
def tons (time : NrmTime) : Int := int64 (time.tvNsec + 1000000000 * time.tvSec)

/-- `nrm_time_fromns` -/
def fromns (ns : Int) : NrmTime := ⟨ns.tdiv 1000000000, ns.tmod 1000000000⟩

/-- `nrm_time_diff` -/
def diff (start stop : NrmTime) : Int :=
  int64 ((stop.tvNsec - start.tvNsec) + 1000000000 * (stop.tvSec - start.tvSec))

/-- The nanosecond count of a time, before it has to fit in an `int64_t`. -/
def ns (time : NrmTime) : Int := time.tvNsec + 1000000000 * time.tvSec

/-- A time whose nanosecond count is non-negative and fits in `int64_t`. -/
structure Valid (time : NrmTime) : Prop where
  sec : 0 ≤ time.tvSec
  nsec : 0 ≤ time.tvNsec
  nsec_lt : time.tvNsec < 1000000000
  fits : time.tvNsec + 1000000000 * time.tvSec < 2 ^ 63

instance (time : NrmTime) : Decidable time.Valid :=
  decidable_of_iff (0 ≤ time.tvSec ∧ 0 ≤ time.tvNsec ∧ time.tvNsec < 1000000000 ∧
      time.tvNsec + 1000000000 * time.tvSec < 2 ^ 63)
    ⟨fun ⟨sec, nsec, nsecLt, fits⟩ => ⟨sec, nsec, nsecLt, fits⟩,
      fun valid => ⟨valid.sec, valid.nsec, valid.nsec_lt, valid.fits⟩⟩

theorem Valid.tons_eq {time : NrmTime} (valid : time.Valid) :
    time.tons = time.tvNsec + 1000000000 * time.tvSec := by
  have sec := valid.sec
  have nsec := valid.nsec
  exact int64_of_fits (by omega) valid.fits

theorem Valid.tons_nonneg {time : NrmTime} (valid : time.Valid) : 0 ≤ time.tons := by
  rw [valid.tons_eq]
  have sec := valid.sec
  have nsec := valid.nsec
  omega

theorem Valid.fromns_tons {time : NrmTime} (valid : time.Valid) : fromns time.tons = time := by
  have count := valid.tons_eq
  have nonneg := valid.tons_nonneg
  have nsecNonneg := valid.nsec
  have nsecBound := valid.nsec_lt
  have sec : time.tons / 1000000000 = time.tvSec := by omega
  have nsec : time.tons % 1000000000 = time.tvNsec := by omega
  simp only [fromns, Int.tdiv_eq_ediv_of_nonneg nonneg, Int.tmod_eq_emod_of_nonneg nonneg, sec, nsec]

end NrmTime

end LibNrm
