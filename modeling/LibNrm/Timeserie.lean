import LibNrm.Objects

namespace LibNrm

structure Event (α : Type) where
  time : NrmTime
  value : α
deriving DecidableEq, Repr

/-- `nrm_timeserie_t`; `scope` is the caller's pointer, never followed here. -/
structure Timeserie (α : Type) where
  sensorUuid : NrmString
  scope : Ptr Scope
  events : List (Event α)
  start : NrmTime
deriving DecidableEq, Repr

namespace Timeserie

variable {α : Type}

def create (sensorUuid : NrmString) (scope : Ptr Scope) : Timeserie α :=
  ⟨sensorUuid, scope, [], .fromns 0⟩

/-- `nrm_timeserie_get_events`, which passes a NULL series on. -/
def getEvents (ts : Option (Timeserie α)) : Option (List (Event α)) := ts.map events

def addEvent (ts : Timeserie α) (e : Event α) : Timeserie α :=
  { ts with
    events := ts.events ++ [e]
    start := if ts.start.tons < e.time.tons then e.time else ts.start }

def addEvents (ts : Timeserie α) (events : List (Event α)) : Timeserie α :=
  events.foldl addEvent ts

theorem addEvents_events (ts : Timeserie α) (events : List (Event α)) :
    (ts.addEvents events).events = ts.events ++ events := by
  induction events generalizing ts with
  | nil => simp [addEvents]
  | cons e rest ih =>
      have tail := ih (ts.addEvent e)
      simp only [addEvents, List.foldl_cons] at tail ⊢
      rw [tail]
      simp [addEvent]

end Timeserie

end LibNrm
