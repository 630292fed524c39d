import LibNrm.EventBase.Ownership

namespace LibNrm

variable {α : Type}

/-- A process with an event base; `held` are the references its other parts have. -/
structure Sharing (α : Type) where
  heap : StringHeap
  store : EventStore α
  held : Nat → Nat

inductive Sharing.Call (α : Type) where
  /-- `nrm_string_fromchar` and the like -/
  | create (content : NrmString)
  | incref (s : Nat)
  | decref (s : Nat)
  | push (sensor : Nat) (scope : ScopeRef) (e : Event α)
  | pull (sensor : Nat) (scope : ScopeRef) (since now : NrmTime)

namespace Sharing

def start (maxperiods : Nat) : Sharing α := ⟨.empty, .create maxperiods, fun _ => 0⟩

def hold (held : Nat → Nat) (s : Nat) : Nat → Nat := fun other => held other + if other = s then 1 else 0

def drop (held : Nat → Nat) (s : Nat) : Nat → Nat := fun other => held other - if other = s then 1 else 0

def create (p : Sharing α) (content : NrmString) : Sharing α × Nat :=
  let (heap, s) := p.heap.stringNew content
  ({ p with heap := heap, held := hold p.held s }, s)

def incref (p : Sharing α) (s : Nat) : Exec (Sharing α) := do
  let heap ← p.heap.stringIncref s
  pure { p with heap := heap, held := hold p.held s }

def decref (p : Sharing α) (s : Nat) : Exec (Sharing α) := do
  let heap ← p.heap.stringDecref s
  pure { p with heap := heap, held := drop p.held s }

def push (p : Sharing α) (sensor : Nat) (scope : ScopeRef) (e : Event α) : Exec (Sharing α) := do
  let (heap, store) ← p.store.pushEvent p.heap sensor scope e
  pure { p with heap := heap, store := store }

def pull (p : Sharing α) (sensor : Nat) (scope : ScopeRef) (since now : NrmTime) :
    Exec (Sharing α × Timeserie α) := do
  let (heap, ts) ← p.store.pullTimeserie p.heap sensor scope since now
  pure ({ p with heap := heap, held := hold p.held sensor }, ts)

def step (p : Sharing α) : Call α → Exec (Sharing α)
  | .create content => .ok (p.create content).1
  | .incref s => p.incref s
  | .decref s => p.decref s
  | .push sensor scope e => p.push sensor scope e
  | .pull sensor scope since now => do
      let (p, _) ← p.pull sensor scope since now
      pure p

/-- A caller uses what it holds. -/
def Allowed (p : Sharing α) : Call α → Prop
  | .create _ => True
  | .incref s | .decref s => 0 < p.held s
  | .push sensor scope _ | .pull sensor scope _ _ => 0 < p.held sensor ∧ 0 < p.held scope.uuid

instance (p : Sharing α) : ∀ call, Decidable (p.Allowed call)
  | .create _ => .isTrue trivial
  | .incref s | .decref s => inferInstanceAs (Decidable (0 < p.held s))
  | .push sensor scope _ | .pull sensor scope _ _ =>
      inferInstanceAs (Decidable (0 < p.held sensor ∧ 0 < p.held scope.uuid))

/-- The base that is meant. -/
def view (p : Sharing α) : EventBase α := p.store.view p.heap.bytes

/-- The same call on the base that is meant. -/
def replay (bytes : Nat → NrmString) (eb : EventBase α) : Call α → Exec (EventBase α)
  | .push sensor scope e => do
      let (_, eb) ← eb.pushEvent (bytes sensor) (some (scope.view bytes)) e.time e.value
      pure eb
  | .create _ | .incref _ | .decref _ | .pull _ _ _ _ => pure eb

structure Inv (p : Sharing α) : Prop where
  owned : p.store.Owned p.heap p.held

theorem start_inv (maxperiods : Nat) : (start maxperiods : Sharing α).Inv :=
  ⟨⟨Data.Table.all_empty _, fun _ => rfl⟩⟩

theorem Inv.known {p : Sharing α} (inv : p.Inv) {s : Nat} (holds : 0 < p.held s) : s < p.heap.next :=
  StringHeap.lt_next_of_live (inv.owned.live holds)

theorem sensor_view_congr {sb : SensorCell α} {bytes other : Nat → NrmString} (keyed : EventStore.KeyedScopes sb)
    (same : ∀ s ∈ EventStore.addresses sb, other s = bytes s) : sb.view other = sb.view bytes := by
  rw [keyed.addresses_eq] at same
  unfold SensorCell.view
  rw [same sb.uuid (by simp), Data.Table.rename_congr]
  intro entry member
  have here : other entry.1 = bytes entry.1 := same entry.1 (List.mem_append_left _ (List.mem_map_of_mem member))
  refine ⟨here, ?_⟩
  unfold ScopeCell.view
  rw [keyed entry member, here]

theorem view_congr {store : EventStore α} {bytes other : Nat → NrmString} (keyed : store.Keyed)
    (same : ∀ s ∈ store.references, other s = bytes s) : store.view other = store.view bytes := by
  unfold EventStore.view
  rw [Data.Table.rename_congr]
  intro entry member
  obtain ⟨uuid, scopes⟩ := keyed entry member
  have here : ∀ s ∈ EventStore.addresses entry.2, other s = bytes s :=
    fun s listed => same s (EventStore.mem_references member listed)
  refine ⟨?_, sensor_view_congr scopes here⟩
  rw [← uuid]
  exact here _ (by simp [EventStore.addresses])

structure Follows (p : Sharing α) (call : Call α) (after : Sharing α) : Prop where
  inv : after.Inv
  grown : p.heap.next ≤ after.heap.next
  bytes : ∀ s < p.heap.next, after.heap.bytes s = p.heap.bytes s
  view : replay p.heap.bytes p.view call = .ok after.view

theorem Inv.create {p : Sharing α} (inv : p.Inv) (content : NrmString) :
    Follows p (.create content) (p.create content).1 := by
  have counted := p.heap.refs.count_create p.heap.next
  have bytes : ∀ s < p.heap.next, (p.create content).1.heap.bytes s = p.heap.bytes s :=
    fun s old => Function.update_of_ne (by omega) _ _
  have known : ∀ s ∈ p.store.references, s < p.heap.next :=
    fun s member => StringHeap.lt_next_of_live (inv.owned.live_of_mem member)
  refine ⟨⟨inv.owned.keyed, fun s => ?_⟩, Nat.le_succ _, bytes, ?_⟩
  · have before := inv.owned.counted s
    show (p.heap.refs.create p.heap.next).count s = _
    rw [counted]
    by_cases here : s = p.heap.next
    · have absent := p.heap.unused s (by omega)
      simp only [Sharing.create, StringHeap.stringNew, hold, here, ↓reduceIte] at *
      omega
    · simp only [Sharing.create, StringHeap.stringNew, hold, here, ↓reduceIte] at *
      omega
  · exact congrArg Except.ok (view_congr inv.owned.keyed fun s member => bytes s (known s member)).symm

theorem follows_of_bytes {p after : Sharing α} {call : Call α} (inv : after.Inv)
    (bytes : after.heap.bytes = p.heap.bytes) (next : after.heap.next = p.heap.next)
    (view : replay p.heap.bytes p.view call = .ok (after.store.view p.heap.bytes)) : Follows p call after := by
  refine ⟨inv, Nat.le_of_eq next.symm, fun s _ => by rw [bytes], ?_⟩
  rw [view, Sharing.view, bytes]

theorem Inv.incref {p : Sharing α} (inv : p.Inv) {s : Nat} (holds : 0 < p.held s) :
    ∃ after, p.incref s = .ok after ∧ Follows p (.incref s) after ∧ after.held = hold p.held s ∧
      after.heap.next = p.heap.next := by
  obtain ⟨heap, taken, bytes, next, -, counted⟩ := StringHeap.stringIncref_spec (inv.owned.live holds)
  refine ⟨{ p with heap := heap, held := hold p.held s }, by rw [Sharing.incref, taken]; rfl, ?_, rfl, next⟩
  refine follows_of_bytes ⟨inv.owned.keyed, fun other => ?_⟩ bytes next rfl
  simp only [counted, inv.owned.counted, hold]
  omega

theorem Inv.decref {p : Sharing α} (inv : p.Inv) {s : Nat} (holds : 0 < p.held s) :
    ∃ after, p.decref s = .ok after ∧ Follows p (.decref s) after ∧ after.held = drop p.held s ∧
      after.heap.next = p.heap.next := by
  obtain ⟨heap, given, bytes, next, -, counted⟩ := StringHeap.stringDecref_spec (inv.owned.live holds)
  refine ⟨{ p with heap := heap, held := drop p.held s }, by rw [Sharing.decref, given]; rfl, ?_, rfl, next⟩
  refine follows_of_bytes ⟨inv.owned.keyed, fun other => ?_⟩ bytes next rfl
  have before := inv.owned.counted other
  have less := counted other
  simp only [drop]
  by_cases here : other = s
  · subst here
    simp only [↓reduceIte] at less ⊢
    omega
  · simp only [here, ↓reduceIte] at less ⊢
    omega

theorem Inv.push {p : Sharing α} (inv : p.Inv) {sensor : Nat} {scope : ScopeRef} (sensorHeld : 0 < p.held sensor)
    (scopeHeld : 0 < p.held scope.uuid) (e : Event α) :
    ∃ after, p.push sensor scope e = .ok after ∧ Follows p (.push sensor scope e) after ∧ after.held = p.held ∧
      after.heap.next = p.heap.next := by
  obtain ⟨heap, store, pushed, owned, bytes, next, meant⟩ := inv.owned.pushEvent sensorHeld scopeHeld e
  refine ⟨{ p with heap := heap, store := store }, by rw [Sharing.push, pushed]; rfl, ?_, rfl, next⟩
  refine follows_of_bytes ⟨owned⟩ bytes next ?_
  rw [replay, view, meant]
  rfl

theorem Inv.pull {p : Sharing α} (inv : p.Inv) {sensor : Nat} {scope : ScopeRef} (sensorHeld : 0 < p.held sensor)
    (scopeHeld : 0 < p.held scope.uuid) (since now : NrmTime) :
    ∃ after ts, p.pull sensor scope since now = .ok (after, ts) ∧ Follows p (.pull sensor scope since now) after ∧
      after.held = hold p.held sensor ∧ after.heap.next = p.heap.next ∧
      p.view.pullTimeserie (p.heap.bytes sensor) (.object (scope.view p.heap.bytes)) since now = .ok ts := by
  obtain ⟨heap, ts, pulled, owned, bytes, next, meant⟩ := inv.owned.pullTimeserie sensorHeld scopeHeld since now
  refine ⟨{ p with heap := heap, held := hold p.held sensor }, ts, by rw [Sharing.pull, pulled]; rfl, ?_, rfl,
    next, meant⟩
  exact follows_of_bytes ⟨owned⟩ bytes next rfl

/-- Every call of a caller that holds what it uses goes through, as on the base that is
meant. -/
theorem Inv.step {p : Sharing α} (inv : p.Inv) {call : Call α} (allowed : p.Allowed call) :
    ∃ after, p.step call = .ok after ∧ Follows p call after := by
  cases call with
  | create content => exact ⟨_, rfl, inv.create content⟩
  | incref s =>
      obtain ⟨after, taken, follows, -⟩ := inv.incref allowed
      exact ⟨after, taken, follows⟩
  | decref s =>
      obtain ⟨after, given, follows, -⟩ := inv.decref allowed
      exact ⟨after, given, follows⟩
  | push sensor scope e =>
      obtain ⟨after, pushed, follows, -⟩ := inv.push allowed.1 allowed.2 e
      exact ⟨after, pushed, follows⟩
  | pull sensor scope since now =>
      obtain ⟨after, ts, pulled, follows, -⟩ := inv.pull allowed.1 allowed.2 since now
      exact ⟨after, by rw [Sharing.step, pulled]; rfl, follows⟩

def Step (before : Sharing α) (call : Call α) (after : Sharing α) : Prop :=
  before.Allowed call ∧ before.step call = .ok after

def Call.strings : Call α → List Nat
  | .create _ => []
  | .incref s | .decref s => [s]
  | .push sensor scope _ | .pull sensor scope _ _ => [sensor, scope.uuid]

theorem Inv.strings_known {p : Sharing α} (inv : p.Inv) {call : Call α} (allowed : p.Allowed call) :
    ∀ s ∈ call.strings, s < p.heap.next := by
  intro s member
  apply inv.known
  cases call <;> simp_all [Call.strings, Allowed]
  all_goals rcases member with rfl | rfl <;> simp [allowed]

theorem replay_congr {bytes other : Nat → NrmString} {call : Call α}
    (same : ∀ s ∈ call.strings, other s = bytes s) (eb : EventBase α) :
    replay other eb call = replay bytes eb call := by
  cases call with
  | push sensor scope e =>
      simp only [replay, ScopeRef.view, same sensor (by simp [Call.strings]), same scope.uuid (by simp [Call.strings])]
  | _ => rfl

theorem foldlM_replay_congr {bytes other : Nat → NrmString} {calls : List (Call α)}
    (same : ∀ call ∈ calls, ∀ s ∈ call.strings, other s = bytes s) (eb : EventBase α) :
    calls.foldlM (replay other) eb = calls.foldlM (replay bytes) eb := by
  induction calls generalizing eb with
  | nil => rfl
  | cons call rest ih =>
      rw [List.foldlM_cons, List.foldlM_cons, replay_congr (same call List.mem_cons_self)]
      congr 1
      funext next
      exact ih (fun call member => same call (List.mem_cons_of_mem _ member)) next

theorem run_replay {maxperiods : Nat} {calls : List (Call α)} {p : Sharing α}
    (ran : Data.Run Step (start maxperiods) calls p) :
    p.Inv ∧ (∀ call ∈ calls, ∀ s ∈ call.strings, s < p.heap.next) ∧
      calls.foldlM (replay p.heap.bytes) (EventBase.create maxperiods) = .ok p.view := by
  induction ran with
  | nil => exact ⟨start_inv maxperiods, nofun, rfl⟩
  | @snoc middle last calls call ran stepped ih =>
      obtain ⟨inv, known, replayed⟩ := ih
      obtain ⟨after, done, follows⟩ := inv.step stepped.1
      cases stepped.2.symm.trans done
      have named := inv.strings_known stepped.1
      refine ⟨follows.inv, ?_, ?_⟩
      · intro other member s mentioned
        rcases List.mem_append.mp member with old | last
        · exact Nat.lt_of_lt_of_le (known other old s mentioned) follows.grown
        · rw [List.mem_singleton.mp last] at mentioned
          exact Nat.lt_of_lt_of_le (named s mentioned) follows.grown
      · rw [List.foldlM_append,
          foldlM_replay_congr fun call member s mentioned => follows.bytes s (known call member s mentioned), replayed,
          Exec.ok_bind, List.foldlM_cons, replay_congr fun s mentioned => follows.bytes s (named s mentioned),
          follows.view]
        rfl

/-- In every run of callers that use what they hold: no call follows a name that is gone,
the base is the one its pushes make by content, a pull answers as that base does, and
destroying the base leaves every string with the references of the callers. -/
theorem event_store_run {maxperiods : Nat} {calls : List (Call α)} {p : Sharing α}
    (ran : Data.Run Step (start maxperiods) calls p) :
    (∀ call, p.Allowed call → ∃ after, p.step call = .ok after) ∧
      calls.foldlM (replay p.heap.bytes) (EventBase.create maxperiods) = .ok p.view ∧
      (∀ sensor scope since now, 0 < p.held sensor → 0 < p.held scope.uuid →
        ∃ after ts, p.pull sensor scope since now = .ok (after, ts) ∧
          p.view.pullTimeserie (p.heap.bytes sensor) (.object (scope.view p.heap.bytes)) since now = .ok ts) ∧
      ∃ after, p.store.destroy p.heap = .ok after ∧ ∀ s, after.refs.count s = p.held s := by
  obtain ⟨inv, -, replayed⟩ := run_replay ran
  refine ⟨fun call allowed => ?_, replayed, fun sensor scope since now sensorHeld scopeHeld => ?_,
    inv.owned.destroy⟩
  · obtain ⟨after, done, -⟩ := inv.step allowed
    exact ⟨after, done⟩
  · obtain ⟨after, ts, pulled, -, -, -, meant⟩ := inv.pull sensorHeld scopeHeld since now
    exact ⟨after, ts, pulled, meant⟩

def sampleCalls : List (Call Nat) :=
  [.create [115], .create [99], .push 0 ⟨1, .reset, .reset, .reset⟩ ⟨.fromns 1000, 5⟩, .decref 0, .decref 1,
    .create [115], .create [99]]

theorem event_store_run_sample :
    ∃ (p after : Sharing Nat) (ts : Timeserie Nat), Data.Run Step (start 1) sampleCalls p ∧
      p.pull 2 ⟨3, .reset, .reset, .reset⟩ (.fromns 0) (.fromns 5000) = .ok (after, ts) ∧
      ts.events = [⟨.fromns 1000, 5⟩] ∧
      ∃ heap, p.store.destroy p.heap = .ok heap ∧ heap.refs.count 0 = 0 ∧ heap.refs.count 2 = 1 := by
  have reached : ∃ p : Sharing Nat, Data.Run Step (start 1) sampleCalls p ∧
      (p.held 0 = 0 ∧ p.held 2 = 1 ∧ p.held 3 = 1 ∧
        Except.toOption (Except.map Timeserie.events (p.view.pullTimeserie (p.heap.bytes 2)
          (.object ⟨p.heap.bytes 3, .reset, .reset, .reset⟩) (.fromns 0) (.fromns 5000))) =
          some [⟨.fromns 1000, 5⟩]) :=
    Data.Run.of_accepted (start 1) sampleCalls (by decide +kernel) (by decide +kernel)
  obtain ⟨p, ran, zero, two, three, meant⟩ := reached
  obtain ⟨-, -, pulls, heap, destroyed, counted⟩ := event_store_run ran
  obtain ⟨after, ts, pulled, answer⟩ := pulls 2 ⟨3, .reset, .reset, .reset⟩ (.fromns 0) (.fromns 5000)
    (by rw [two]; decide) (by rw [three]; decide)
  refine ⟨p, after, ts, ran, pulled, ?_, heap, destroyed, (counted 0).trans zero, (counted 2).trans two⟩
  rw [ScopeRef.view] at answer
  rw [answer] at meant
  exact Option.some.inj meant

end Sharing

end LibNrm
