import LibNrm.EventBase.Sharing
import LibNrm.Messages

namespace LibNrm

/-! `nrm_server_events_callback` makes a string and a scope for every series of a message and
leaves them; `nrmd_control_tick` overwrites the series of an input by the next one.  Counts
are exact numbers, and the runs are those in which `nrm_string_incref` meets none from
2^31 on, where its assertion would end the daemon.
-/

namespace Sharing

/-- The events of `nrm_server_publish` have a series of their own. -/
def publish (p : Sharing ℚ) (uuid : Nat) : Exec (Sharing ℚ) := do
  let p ← p.incref uuid
  p.decref uuid

/-- `nrmd_event_callback` with a scope; without one both calls refuse. -/
def eventCallback (uuid : Nat) (scope : ScopeRef) (p : Sharing ℚ) (e : MsgEvent) : Exec (Sharing ℚ) := do
  let p ← p.push uuid scope ⟨.fromns e.time, e.value⟩
  p.publish uuid

/-- The body of the loop of `nrm_server_events_callback`. -/
def seriesStep (p : Sharing ℚ) (ts : MsgTimeserie) : Exec (Sharing ℚ) :=
  let (p, uuid) := p.create (stringFromchar ts.sensorUuid)
  match scopeCreateFrommsg ts.scope with
  | none => .ok p
  | some scope =>
      let (p, scopeUuid) := p.create scope.uuid
      ts.events.foldlM (eventCallback uuid ⟨scopeUuid, scope.cpu, scope.numa, scope.gpu⟩) p

/-- The loop over the inputs in `nrmd_control_tick`, of which these are the sensors.  `found`
is what is in `scope` after the lookup for an input, and the clock is read for each of them. -/
def pullInputs (since : NrmTime) (clock : Nat → NrmTime) (found : Nat → Option ScopeRef) :
    Nat → Sharing ℚ → List Nat → Exec (Sharing ℚ)
  | _, p, [] => .ok p
  | index, p, sensor :: rest =>
      match found index with
      -- input scope not found
      | none => pullInputs since clock found (index + 1) p rest
      | some scope => do
          let (p, _) ← p.pull sensor scope since (clock index)
          pullInputs since clock found (index + 1) p rest

inductive Served where
  | events (series : List MsgTimeserie)
  /-- an ADD, with the strings of the object it leaves in the registry -/
  | add (strings : List NrmString)
  | tick (since : NrmTime) (clock : Nat → NrmTime) (found : Nat → Option ScopeRef)

def serve (sensors : List Nat) (p : Sharing ℚ) : Served → Exec (Sharing ℚ)
  | .events series => series.foldlM seriesStep p
  | .add strings => .ok (strings.foldl (fun p content => (p.create content).1) p)
  | .tick since clock found => pullInputs since clock found 0 p sensors

/-- The number of strings made for a message. -/
def Served.made : Served → Nat
  | .events series => (series.map fun ts => if ts.scope.isSome then 2 else 1).sum
  | .add strings => strings.length
  | .tick _ _ _ => 0

/-- The sensors of the inputs from `index` on whose scope is found. -/
def pulledFrom (found : Nat → Option ScopeRef) : Nat → List Nat → List Nat
  | _, [] => []
  | index, sensor :: rest =>
      if (found index).isSome then sensor :: pulledFrom found (index + 1) rest
      else pulledFrom found (index + 1) rest

/-- The sensors whose series are pulled. -/
def Served.pulled (sensors : List Nat) : Served → List Nat
  | .tick _ _ found => pulledFrom found 0 sensors
  | .events _ | .add _ => []

/-- A scope that is found is one of the registry. -/
def Served.Registered (p : Sharing ℚ) : Served → Prop
  | .tick _ _ found => ∀ index scope, found index = some scope → 0 < p.held scope.uuid
  | .events _ | .add _ => True

/-- No count is one that `nrm_string_incref` refuses, nor was one on the way here. -/
def Fits (p : Sharing ℚ) : Prop := ∀ s, p.heap.refs.count s + 1 < 2 ^ 31

def Serves (sensors : List Nat) (p : Sharing ℚ) (op : Served) (q : Sharing ℚ) : Prop :=
  op.Registered p ∧ serve sensors p op = .ok q ∧ q.Fits

/-- Between two states, some strings are made and held, and some references are added. -/
structure Kept (p q : Sharing ℚ) (made : Nat) (extra : Nat → Nat) : Prop where
  inv : q.Inv
  next : q.heap.next = p.heap.next + made
  held : ∀ s, q.held s = p.held s + (if p.heap.next ≤ s ∧ s < q.heap.next then 1 else 0) + extra s

namespace Kept

variable {p q r : Sharing ℚ} {made later : Nat} {extra more : Nat → Nat}

theorem refl (inv : p.Inv) : Kept p p 0 fun _ => 0 := by
  refine ⟨inv, rfl, fun s => ?_⟩
  rw [if_neg (by omega)]
  rfl

theorem trans (first : Kept p q made extra) (second : Kept q r later more) :
    Kept p r (made + later) fun s => extra s + more s := by
  have middle := first.next
  have last := second.next
  refine ⟨second.inv, by omega, fun s => ?_⟩
  rw [second.held, first.held]
  by_cases old : p.heap.next ≤ s ∧ s < q.heap.next
  · rw [if_pos old, if_neg (by omega), if_pos (by omega)]
    omega
  · rw [if_neg old]
    by_cases new : q.heap.next ≤ s ∧ s < r.heap.next
    · rw [if_pos new, if_pos (by omega)]
      omega
    · rw [if_neg new, if_neg (by omega)]
      omega

theorem held_le (kept : Kept p q made extra) (s : Nat) : p.held s ≤ q.held s := by
  rw [kept.held]
  omega

theorem create (inv : p.Inv) (content : NrmString) :
    Kept p (p.create content).1 1 (fun _ => 0) ∧ 0 < (p.create content).1.held (p.create content).2 := by
  refine ⟨⟨(inv.create content).inv, rfl, fun s => ?_⟩, ?_⟩
  · show hold p.held p.heap.next s = _
    by_cases here : s = p.heap.next
    · rw [if_pos ⟨by omega, by rw [here]; exact Nat.lt_succ_self _⟩]
      simp [hold, here]
    · have outside : ¬ (p.heap.next ≤ s ∧ s < (p.create content).1.heap.next) := by
        show ¬ (p.heap.next ≤ s ∧ s < p.heap.next + 1)
        omega
      rw [if_neg outside]
      simp [hold, here]
  · show 0 < hold p.held p.heap.next p.heap.next
    simp [hold]

theorem of_held (inv : q.Inv) (next : q.heap.next = p.heap.next) (held : ∀ s, q.held s = p.held s + extra s) :
    Kept p q 0 extra := by
  refine ⟨inv, next, fun s => ?_⟩
  rw [if_neg (by omega), held]
  rfl

end Kept

variable {p : Sharing ℚ}

theorem Inv.publish (inv : p.Inv) {uuid : Nat} (holds : 0 < p.held uuid) :
    ∃ q, p.publish uuid = .ok q ∧ Kept p q 0 fun _ => 0 := by
  obtain ⟨middle, taken, first, middleHeld, middleNext⟩ := inv.incref holds
  have still : 0 < middle.held uuid := by
    rw [middleHeld]
    simp [hold]
  obtain ⟨q, given, second, held, next⟩ := first.inv.decref still
  refine ⟨q, by rw [Sharing.publish, taken]; exact given, .of_held second.inv (next.trans middleNext) fun s => ?_⟩
  rw [held, middleHeld]
  simp [hold, drop]

theorem Inv.eventCallback (inv : p.Inv) {uuid : Nat} {scope : ScopeRef} (uuidHeld : 0 < p.held uuid)
    (scopeHeld : 0 < p.held scope.uuid) (e : MsgEvent) :
    ∃ q, Sharing.eventCallback uuid scope p e = .ok q ∧ Kept p q 0 fun _ => 0 := by
  obtain ⟨middle, pushed, follows, held, next⟩ := inv.push uuidHeld scopeHeld ⟨.fromns e.time, e.value⟩
  have first : Kept p middle 0 fun _ => 0 := .of_held follows.inv next fun s => by rw [held]; rfl
  obtain ⟨q, published, second⟩ := follows.inv.publish (show 0 < middle.held uuid by rw [held]; exact uuidHeld)
  exact ⟨q, by rw [Sharing.eventCallback, pushed]; exact published, first.trans second⟩

theorem Inv.eventsLoop (inv : p.Inv) {uuid : Nat} (scope : ScopeRef) (uuidHeld : 0 < p.held uuid)
    (scopeHeld : 0 < p.held scope.uuid) (events : List MsgEvent) :
    ∃ q, events.foldlM (Sharing.eventCallback uuid scope) p = .ok q ∧ Kept p q 0 fun _ => 0 := by
  induction events generalizing p with
  | nil => exact ⟨p, rfl, .refl inv⟩
  | cons e rest ih =>
      obtain ⟨middle, called, first⟩ := inv.eventCallback uuidHeld scopeHeld e
      obtain ⟨q, looped, second⟩ := ih first.inv (Nat.lt_of_lt_of_le uuidHeld (first.held_le uuid))
        (Nat.lt_of_lt_of_le scopeHeld (first.held_le scope.uuid))
      exact ⟨q, by rw [List.foldlM_cons, called]; exact looped, first.trans second⟩

theorem Inv.seriesStep (inv : p.Inv) (ts : MsgTimeserie) :
    ∃ q, p.seriesStep ts = .ok q ∧ Kept p q (if ts.scope.isSome then 2 else 1) fun _ => 0 := by
  obtain ⟨first, uuidHeld⟩ := Kept.create inv (stringFromchar ts.sensorUuid)
  unfold Sharing.seriesStep
  cases given : ts.scope with
  | none => exact ⟨_, rfl, first⟩
  | some msg =>
      obtain ⟨second, scopeHeld⟩ := Kept.create first.inv msg.decoded.uuid
      have both := first.trans second
      obtain ⟨q, looped, third⟩ := both.inv.eventsLoop
        ⟨_, msg.decoded.cpu, msg.decoded.numa, msg.decoded.gpu⟩
        (Nat.lt_of_lt_of_le uuidHeld (second.held_le _)) scopeHeld ts.events
      exact ⟨q, looped, both.trans third⟩

theorem Inv.series (inv : p.Inv) (series : List MsgTimeserie) :
    ∃ q, series.foldlM Sharing.seriesStep p = .ok q ∧ Kept p q (Served.events series).made fun _ => 0 := by
  induction series generalizing p with
  | nil => exact ⟨p, rfl, .refl inv⟩
  | cons ts rest ih =>
      obtain ⟨middle, stepped, first⟩ := inv.seriesStep ts
      obtain ⟨q, looped, second⟩ := ih first.inv
      exact ⟨q, by rw [List.foldlM_cons, stepped]; exact looped, first.trans second⟩

theorem Inv.add (inv : p.Inv) (strings : List NrmString) :
    Kept p (strings.foldl (fun p content => (p.create content).1) p) strings.length fun _ => 0 := by
  induction strings generalizing p with
  | nil => exact .refl inv
  | cons content rest ih =>
      have first := (Kept.create inv content).1
      have both := first.trans (ih first.inv)
      rw [Nat.add_comm] at both
      exact both

theorem Inv.pullInputs (inv : p.Inv) {sensors : List Nat} (held : ∀ sensor ∈ sensors, 0 < p.held sensor)
    {found : Nat → Option ScopeRef}
    (registered : ∀ index scope, found index = some scope → 0 < p.held scope.uuid) (since : NrmTime)
    (clock : Nat → NrmTime) (index : Nat) :
    ∃ q, Sharing.pullInputs since clock found index p sensors = .ok q ∧
      Kept p q 0 fun s => (pulledFrom found index sensors).count s := by
  induction sensors generalizing p index with
  | nil => exact ⟨p, rfl, .refl inv⟩
  | cons sensor rest ih =>
      have others : ∀ sensor ∈ rest, 0 < p.held sensor := fun other member =>
        held other (List.mem_cons_of_mem _ member)
      cases here : found index with
      | none =>
          obtain ⟨q, looped, kept⟩ := ih inv others registered (index + 1)
          refine ⟨q, by rw [Sharing.pullInputs, here]; exact looped, ?_⟩
          rw [pulledFrom, here]
          exact kept
      | some scope =>
          obtain ⟨middle, ts, pulled, follows, middleHeld, next, -⟩ :=
            inv.pull (held sensor List.mem_cons_self) (registered index scope here) since (clock index)
          have first : Kept p middle 0 fun s => if s = sensor then 1 else 0 :=
            .of_held follows.inv next fun s => by rw [middleHeld]; rfl
          obtain ⟨q, looped, second⟩ := ih first.inv
            (fun other member => Nat.lt_of_lt_of_le (others other member) (first.held_le other))
            (fun index scope there => Nat.lt_of_lt_of_le (registered index scope there) (first.held_le scope.uuid))
            (index + 1)
          refine ⟨q, by simp only [Sharing.pullInputs, here, pulled]; exact looped, ?_⟩
          have both := first.trans second
          refine ⟨both.inv, both.next, fun s => ?_⟩
          rw [both.held, pulledFrom, here, Option.isSome_some, if_pos rfl, List.count_cons]
          simp only [beq_iff_eq, @eq_comm _ sensor s]
          omega

theorem Inv.serve (inv : p.Inv) {sensors : List Nat} (held : ∀ sensor ∈ sensors, 0 < p.held sensor)
    {op : Served} (registered : op.Registered p) :
    ∃ q, Sharing.serve sensors p op = .ok q ∧ Kept p q op.made fun s => (op.pulled sensors).count s := by
  cases op with
  | events series => exact inv.series series
  | add strings => exact ⟨_, rfl, inv.add strings⟩
  | tick since clock found => exact inv.pullInputs held registered since clock 0

theorem Inv.serve_run (inv : p.Inv) {sensors : List Nat} (held : ∀ sensor ∈ sensors, 0 < p.held sensor)
    {ops : List Served} {final : Sharing ℚ} (ran : Data.Run (Serves sensors) p ops final) :
    Kept p final (ops.map Served.made).sum fun s => (ops.flatMap (Served.pulled sensors)).count s := by
  induction ran with
  | nil => exact .refl inv
  | @snoc middle last ops op ran stepped ih =>
      obtain ⟨registered, served, -⟩ := stepped
      obtain ⟨q, same, second⟩ := ih.inv.serve
        (fun sensor member => Nat.lt_of_lt_of_le (held sensor member) (ih.held_le sensor)) registered
      cases served.symm.trans same
      have both := ih.trans second
      simpa [List.count_append] using both

theorem run_fits {sensors : List Nat} {ops : List Served} {final : Sharing ℚ}
    (ran : Data.Run (Serves sensors) p ops final) : ops = [] ∨ final.Fits := by
  cases ran with
  | nil => exact .inl rfl
  | snoc _ stepped => exact .inr stepped.2.2

/-- What the daemon leaves behind, once its event base is destroyed: each string made for
a message, and a reference to the sensor of an input for every tick that found its scope.
Such a tick cannot come 2^31 times. -/
theorem daemon_strings_kept {maxperiods : Nat} {calls : List (Call ℚ)}
    (ran : Data.Run Step (start maxperiods) calls p) {sensors : List Nat}
    (held : ∀ sensor ∈ sensors, 0 < p.held sensor) {ops : List Served} {final : Sharing ℚ}
    (served : Data.Run (Serves sensors) p ops final) :
    (∀ op : Served, op.Registered final → ∃ next, Sharing.serve sensors final op = .ok next) ∧
      (∀ s, (ops.flatMap (Served.pulled sensors)).count s < 2 ^ 31) ∧
      final.heap.next = p.heap.next + (ops.map Served.made).sum ∧
      ∃ after, final.store.destroy final.heap = .ok after ∧
        ∀ s, after.refs.count s = p.held s + (if p.heap.next ≤ s ∧ s < final.heap.next then 1 else 0) +
          (ops.flatMap (Served.pulled sensors)).count s := by
  obtain ⟨inv, -, -⟩ := run_replay ran
  have kept := inv.serve_run held served
  obtain ⟨after, destroyed, counted⟩ := kept.inv.owned.destroy
  refine ⟨fun op registered => ?_, fun s => ?_, kept.next, after, destroyed,
    fun s => (counted s).trans (kept.held s)⟩
  · obtain ⟨next, done, -⟩ := kept.inv.serve
      (fun sensor member => Nat.lt_of_lt_of_le (held sensor member) (kept.held_le sensor)) registered
    exact ⟨next, done⟩
  · rcases run_fits served with rfl | fits
    · exact Nat.two_pow_pos 31
    · have below := fits s
      have share := kept.inv.owned.counted s
      have whole := kept.held s
      omega

theorem fits_of_next (small : ∀ s < p.heap.next, p.heap.refs.count s + 1 < 2 ^ 31) : p.Fits := by
  intro s
  by_cases old : s < p.heap.next
  · exact small s old
  · rw [p.heap.unused s (by omega)]
    decide

/-- One message with one series, an ADD, and two ticks; the first does not find the scope of
the second input. -/
def sampleOps : List Served :=
  [.events [⟨[115], some ⟨[99], [], [], []⟩, 0, [⟨1000, 5⟩]⟩],
    .tick (.fromns 0) (fun _ => .fromns 0) fun index =>
      if index = 0 then some ⟨1, .reset, .reset, .reset⟩ else none,
    .add [[103]],
    .tick (.fromns 0) (fun _ => .fromns 0) fun _ => some ⟨1, .reset, .reset, .reset⟩]

theorem daemon_strings_kept_sample :
    ∃ (p final : Sharing ℚ) (after : StringHeap), Data.Run (Serves [0, 0]) p sampleOps final ∧
      final.store.destroy final.heap = .ok after ∧ after.refs.count 0 = 4 ∧ after.refs.count 1 = 1 ∧
      after.refs.count 2 = 1 ∧ after.refs.count 3 = 1 ∧ after.refs.count 4 = 1 := by
  have ran : Data.Run Step (start 1) [.create [115], .create [99]]
      (((start 1 : Sharing ℚ).create [115]).1.create [99]).1 :=
    .snoc (.snoc (.nil _) ⟨trivial, rfl⟩) ⟨trivial, rfl⟩
  have held : ∀ sensor ∈ [0, 0], 0 < (((start 1 : Sharing ℚ).create [115]).1.create [99]).1.held sensor := by
    decide
  obtain ⟨final, served⟩ : ∃ final, Data.Run (Serves [0, 0])
      (((start 1 : Sharing ℚ).create [115]).1.create [99]).1 sampleOps final := by
    refine ⟨_, .cons ⟨trivial, rfl, fits_of_next ?_⟩ (.cons ⟨?_, rfl, fits_of_next ?_⟩
      (.cons ⟨trivial, rfl, fits_of_next ?_⟩ (.cons ⟨?_, rfl, fits_of_next ?_⟩ (.nil _))))⟩
    · decide +kernel
    · intro index scope there
      dsimp only at there
      split at there <;> cases there
      decide +kernel
    · decide +kernel
    · decide +kernel
    · intro index scope there
      cases there
      decide +kernel
    · decide +kernel
  obtain ⟨-, -, next, after, destroyed, counted⟩ := daemon_strings_kept ran held served
  have made : final.heap.next = 5 := next
  refine ⟨_, final, after, served, destroyed, ?_, ?_, ?_, ?_, ?_⟩ <;> rw [counted, made] <;> decide

end Sharing

end LibNrm
