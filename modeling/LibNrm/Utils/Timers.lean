import LibNrm.Utils.Basic
import Mathlib.Data.Rat.Defs

namespace LibNrm

/-- Two's complement reading of an integer as `int`. -/
def int32 (value : Int) : Int := Int.bmod value (2 ^ 32)

/-- The milliseconds of a time, computed in 64 bits and kept in an `int`. -/
def millisecs (sleeptime : NrmTime) : Int :=
  int32 (int64 (sleeptime.tvSec * 1000 + sleeptime.tvNsec.tdiv 1000000))

/-- The two functions that set a timer: the return code, and the delay given to
`zloop_timer` if it is called. -/
def settimer {α : Type} (self : Option α) (sleeptime : NrmTime) : Int × Option Int :=
  match self with
  | none => (-nrmEinval, none)
  | some _ => (0, some (millisecs sleeptime))

/-- `nrm_server_settimer` -/
def serverSettimer {α : Type} (server : Option α) (sleeptime : NrmTime) : Int × Option Int :=
  settimer server sleeptime

/-- `nrm_reactor_settimer` -/
def reactorSettimer {α : Type} (reactor : Option α) (sleeptime : NrmTime) : Int × Option Int :=
  settimer reactor sleeptime

/-- `nrm_time_fromfreq`, for a frequency whose period fits in an `int64_t`.  The `double` is
an exact rational, so that the division does not round; its conversion truncates. -/
def timeFromfreq (freq : Rat) : NrmTime :=
  let period := 1000000000 / freq
  .fromns (period.num.tdiv period.den)

/-- A delay stands for a period of `ns` nanoseconds: it is positive, and off by less than
a millisecond. -/
def Faithful (ns delay : Int) : Prop :=
  0 < delay ∧ delay * 1000000 - ns < 1000000 ∧ ns - delay * 1000000 < 1000000

instance (ns delay : Int) : Decidable (Faithful ns delay) := inferInstanceAs (Decidable (_ ∧ _))

/-- The delay that both functions pass on for a time is the count of milliseconds that was
computed, not wrapped, and stands for the period. -/
def TimersFaithful {α β : Type} (server : α) (reactor : β) (ns : Int) (sleeptime : NrmTime) : Prop :=
  ∃ delay, serverSettimer (some server) sleeptime = (0, some delay) ∧
    reactorSettimer (some reactor) sleeptime = (0, some delay) ∧
    delay = sleeptime.tvSec * 1000 + sleeptime.tvNsec.tdiv 1000000 ∧ Faithful ns delay

variable {α β : Type}

theorem fromns_millisecs {ns : Int} (positive : 1 ≤ ns) :
    (NrmTime.fromns ns).tvSec * 1000 + (NrmTime.fromns ns).tvNsec.tdiv 1000000 = ns / 1000000 := by
  have sec : (NrmTime.fromns ns).tvSec = ns / 1000000000 := Int.tdiv_eq_ediv_of_nonneg (by omega)
  have nsec : (NrmTime.fromns ns).tvNsec = ns % 1000000000 := Int.tmod_eq_emod_of_nonneg (by omega)
  rw [sec, nsec, Int.tdiv_eq_ediv_of_nonneg (by omega)]
  omega

theorem millisecs_fromns {ns : Int} (positive : 1 ≤ ns) (fits : ns < 2 ^ 63) :
    millisecs (.fromns ns) = int32 (ns / 1000000) := by
  rw [millisecs, fromns_millisecs positive, int64_of_fits (by omega) (by omega)]

theorem int32_bounds (value : Int) : -(2 ^ 31) ≤ int32 value ∧ int32 value < 2 ^ 31 := by
  unfold int32
  have lower := Int.le_bmod (x := value) (m := 2 ^ 32) (by decide)
  have upper := Int.bmod_lt (x := value) (m := 2 ^ 32) (by decide)
  omega

theorem timersFaithful_iff_millisecs (server : α) (reactor : β) (ns : Int) (sleeptime : NrmTime) :
    TimersFaithful server reactor ns sleeptime ↔
      millisecs sleeptime = sleeptime.tvSec * 1000 + sleeptime.tvNsec.tdiv 1000000 ∧
        Faithful ns (millisecs sleeptime) := by
  constructor
  · intro timers
    obtain ⟨delay, passed, -, whole, faithful⟩ := timers
    have same : millisecs sleeptime = delay := Option.some.inj (congrArg Prod.snd passed)
    rw [same]
    exact ⟨whole, faithful⟩
  · intro delay
    obtain ⟨whole, faithful⟩ := delay
    exact ⟨millisecs sleeptime, rfl, rfl, whole, faithful⟩

theorem millisecs_faithful_iff {ns : Int} (positive : 1 ≤ ns) (fits : ns < 2 ^ 63) :
    (millisecs (.fromns ns) =
        (NrmTime.fromns ns).tvSec * 1000 + (NrmTime.fromns ns).tvNsec.tdiv 1000000 ∧
      Faithful ns (millisecs (.fromns ns))) ↔ 1000000 ≤ ns ∧ ns < 2 ^ 31 * 1000000 := by
  rw [millisecs_fromns positive fits, fromns_millisecs positive]
  have bounds := int32_bounds (ns / 1000000)
  constructor
  · intro delay
    obtain ⟨whole, longer, -⟩ := delay
    omega
  · intro range
    obtain ⟨atLeast, small⟩ := range
    have whole : int32 (ns / 1000000) = ns / 1000000 := Int.bmod_eq_of_le (by omega) (by omega)
    rw [whole]
    refine ⟨rfl, ?_⟩
    unfold Faithful
    omega

/-- Both timers get a delay that stands for the period exactly if the period is at least
a millisecond and less than `2 ^ 31` of them. -/
theorem timers_faithful_iff (server : α) (reactor : β) (ns : Int) (positive : 1 ≤ ns)
    (fits : ns < 2 ^ 63) :
    TimersFaithful server reactor ns (.fromns ns) ↔ 1000000 ≤ ns ∧ ns < 2 ^ 31 * 1000000 := by
  rw [timersFaithful_iff_millisecs]
  exact millisecs_faithful_iff positive fits

theorem timers_faithful_second : TimersFaithful () () 1000000000 (.fromns 1000000000) :=
  (timers_faithful_iff () () 1000000000 (by decide) (by decide)).mpr (by decide)

/-- A period of one nanosecond becomes no delay at all, as that of `--freq 2000` does, and
one of `2 ^ 31` milliseconds a negative one. -/
theorem short_and_long_periods_lost :
    ¬ TimersFaithful () () 1 (.fromns 1) ∧
      ¬ TimersFaithful () () 500000 (timeFromfreq 2000) ∧
      ¬ TimersFaithful () () (2 ^ 31 * 1000000) (.fromns (2 ^ 31 * 1000000)) ∧
      millisecs (.fromns 1) = 0 ∧ millisecs (.fromns (2 ^ 31 * 1000000)) = -(2 ^ 31) := by
  have lost {ns delay : Int} {sleeptime : NrmTime} (computed : millisecs sleeptime = delay)
      (negative : delay ≤ 0) : ¬ TimersFaithful () () ns sleeptime := by
    rw [timersFaithful_iff_millisecs, computed]
    intro timers
    obtain ⟨-, longer, -⟩ := timers
    omega
  have short : millisecs (.fromns 1) = 0 := by decide
  have fast : millisecs (timeFromfreq 2000) = 0 := by decide +kernel
  have long : millisecs (.fromns (2 ^ 31 * 1000000)) = -(2 ^ 31) := by decide
  exact ⟨lost short (by decide), lost fast (by decide), lost long (by decide), short, long⟩

end LibNrm
