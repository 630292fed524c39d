import LibNrm.Timeserie

namespace LibNrm

/-- The globals of the tool, and the events given to `nrm_client_send_event`.
The count is an exact number. -/
structure RateLimiter where
  globalCount : Int
  lastSend : NrmTime
  sent : List (Event Int)
deriving DecidableEq, Repr

namespace RateLimiter

/-- `nrm_ompt_ratelimit_init`; `now` is what the clock reads. -/
def ratelimitInit (limiter : RateLimiter) (now : NrmTime) : RateLimiter :=
  { limiter with lastSend := now }

/-- `nrm_ompt_send_event`, under `global_lock`; `nrm_ratelimit` is unsigned and
compared as an `int64_t`. -/
def sendEvent (nrmRatelimit : UInt64) (limiter : RateLimiter) (now : NrmTime) : RateLimiter :=
  let diff := limiter.lastSend.diff now
  let globalCount := limiter.globalCount + 1
  if int64 nrmRatelimit.toNat < diff then
    { globalCount := 0, lastSend := now, sent := limiter.sent ++ [⟨now, globalCount⟩] }
  else
    { limiter with globalCount := globalCount }

/-- `nrm_ompt_ratelimit_finalize`; the count stays as it is. -/
def ratelimitFinalize (limiter : RateLimiter) (now : NrmTime) : RateLimiter :=
  if 0 < limiter.globalCount then
    { limiter with lastSend := now, sent := limiter.sent ++ [⟨now, limiter.globalCount⟩] }
  else
    { limiter with lastSend := now }

/-- The calls of all threads in the order in which they get the lock, each with what the
clock reads then. -/
def run (nrmRatelimit : UInt64) (limiter : RateLimiter) (calls : List NrmTime) : RateLimiter :=
  calls.foldl (fun limiter now => limiter.sendEvent nrmRatelimit now) limiter

def progress (limiter : RateLimiter) : Int := (limiter.sent.map Event.value).sum

/-- All progress is either sent or still counted, and nothing empty was sent. -/
structure Conserves (limiter : RateLimiter) (calls : Nat) : Prop where
  total : limiter.progress + limiter.globalCount = calls
  counted : 0 ≤ limiter.globalCount
  positive : ∀ event ∈ limiter.sent, 0 < event.value

namespace Conserves

variable {limiter : RateLimiter} {calls : Nat}

theorem sent_snoc {value : Int} (conserves : Conserves limiter calls) (now : NrmTime)
    (positive : 0 < value) :
    progress { limiter with sent := limiter.sent ++ [⟨now, value⟩] } = limiter.progress + value ∧
      ∀ event ∈ limiter.sent ++ [⟨now, value⟩], 0 < event.value := by
  constructor
  · rw [progress, List.map_append, List.sum_append, List.map_singleton, List.sum_singleton]
    rfl
  · intro event member
    rcases List.mem_append.mp member with earlier | now
    · exact conserves.positive event earlier
    · rw [List.mem_singleton.mp now]
      exact positive

theorem sendEvent (conserves : Conserves limiter calls) (nrmRatelimit : UInt64) (now : NrmTime) :
    Conserves (limiter.sendEvent nrmRatelimit now) (calls + 1) := by
  have total := conserves.total
  have counted := conserves.counted
  unfold RateLimiter.sendEvent
  dsimp only
  split
  · obtain ⟨sum, positive⟩ := conserves.sent_snoc now (show 0 < limiter.globalCount + 1 by omega)
    constructor
    · change progress { limiter with sent := _ } + 0 = _
      rw [sum]
      push_cast
      omega
    · exact Int.le_refl 0
    · exact positive
  · constructor
    · change limiter.progress + (limiter.globalCount + 1) = _
      push_cast
      omega
    · change 0 ≤ limiter.globalCount + 1
      omega
    · exact conserves.positive

theorem finalized (conserves : Conserves limiter calls) (now : NrmTime) :
    (limiter.ratelimitFinalize now).progress = calls ∧
      ∀ event ∈ (limiter.ratelimitFinalize now).sent, 0 < event.value := by
  have total := conserves.total
  have counted := conserves.counted
  unfold ratelimitFinalize
  split
  · rename_i left
    obtain ⟨sum, positive⟩ := conserves.sent_snoc now left
    exact ⟨sum.trans total, positive⟩
  · refine ⟨?_, conserves.positive⟩
    change limiter.progress = _
    omega

theorem run (conserves : Conserves limiter 0) (nrmRatelimit : UInt64) (calls : List NrmTime) :
    Conserves (limiter.run nrmRatelimit calls) calls.length := by
  induction calls using List.reverseRecOn with
  | nil => exact conserves
  | append_singleton front now ih =>
      rw [RateLimiter.run, List.foldl_append, List.length_append]
      exact ih.sendEvent nrmRatelimit now

end Conserves

/-- Whatever the threads, the clock and the limit, every call is accounted for by
the events sent and the count after it, and by the events alone once the tool is
finalized. -/
theorem limiter_conserves (nrmRatelimit : UInt64) (boot begun : NrmTime) (calls : List NrmTime) :
    let start := RateLimiter.ratelimitInit ⟨0, boot, []⟩ begun
    (∀ front, front <+: calls →
      let limiter := start.run nrmRatelimit front
      limiter.progress + limiter.globalCount = front.length ∧
        ∀ event ∈ limiter.sent, event.value ≠ 0) ∧
      ∀ now, let final := (start.run nrmRatelimit calls).ratelimitFinalize now
        final.progress = calls.length ∧ ∀ event ∈ final.sent, event.value ≠ 0 := by
  intro start
  have fresh : Conserves start 0 := ⟨rfl, Int.le_refl 0, fun _ member => nomatch member⟩
  constructor
  · intro front before limiter
    have conserves := fresh.run nrmRatelimit front
    exact ⟨conserves.total, fun event member => (conserves.positive event member).ne'⟩
  · intro now final
    obtain ⟨total, positive⟩ := (fresh.run nrmRatelimit calls).finalized now
    exact ⟨total, fun event member => (positive event member).ne'⟩

end RateLimiter

end LibNrm
