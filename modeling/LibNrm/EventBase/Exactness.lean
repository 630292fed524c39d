import LibNrm.EventBase

namespace LibNrm

variable {α β : Type}

/-- What all four branches amount to. -/
def ensured (table : Hash β) (uuid : NrmString) (fresh : β) : Hash β :=
  match table.lookup uuid with
  | none => table.append uuid fresh
  | some _ => table

theorem ensured_lookup (table : Hash β) (uuid : NrmString) (fresh : β) (other : NrmString) :
    (ensured table uuid fresh).lookup other =
      if other = uuid then some ((table.lookup uuid).getD fresh) else table.lookup other := by
  unfold ensured
  cases found : table.lookup uuid with
  | some old =>
      by_cases same : other = uuid
      · simp [same, found]
      · simp [same]
  | none =>
      rw [Data.Table.lookup_append]
      by_cases same : other = uuid
      · simp [same, found]
      · have different : uuid ≠ other := fun equal => same equal.symm
        simp only [same, different, ↓reduceIte]
        cases table.lookup other <;> rfl

theorem ensured_lookup_self (table : Hash β) (uuid : NrmString) (fresh : β) :
    (ensured table uuid fresh).lookup uuid = some ((table.lookup uuid).getD fresh) := by
  rw [ensured_lookup, if_pos rfl]

theorem ensured_all {property : NrmString → β → Prop} {table : Hash β} {uuid : NrmString} {fresh : β}
    (all : table.All property) (new : property uuid fresh) :
    (ensured table uuid fresh).All property := by
  unfold ensured
  cases table.lookup uuid with
  | none => exact all.append new
  | some old => exact all

theorem ensured_modify_lookup (table : Hash β) (uuid : NrmString) (fresh value : β)
    (other : NrmString) :
    ((ensured table uuid fresh).modify uuid fun _ => value).lookup other =
      if other = uuid then some value else table.lookup other := by
  rw [Data.Table.lookup_modify, ensured_lookup]
  by_cases same : other = uuid
  · simp [same]
  · simp [same]

/-- The error code of `find` sends each of the branches where it belongs. -/
theorem find_or_create {σ : Type} (table : Hash β) (uuid : NrmString) (fresh : β)
    (whole : σ) (rebuild : Hash β → σ) (unchanged : rebuild table = whole) :
    (if table.entries = [] then pure (rebuild (Hash.add table uuid fresh).2)
      else do
        assert ((table.find uuid).1 = 0 ∨ (table.find uuid).1 = -nrmEnotfound)
        if (table.find uuid).1 = -nrmEnotfound then pure (rebuild (Hash.add table uuid fresh).2)
        else pure whole : Exec σ) = .ok (rebuild (ensured table uuid fresh)) := by
  by_cases empty : table.entries = []
  · have absent : table.lookup uuid = none := by simp [Data.Table.lookup, empty]
    simp [empty, ensured, absent, Hash.add]
  · have code := Hash.find_fst_of_nonempty empty uuid
    cases found : table.lookup uuid with
    | none =>
        simp only [found] at code
        simp [empty, code, ensured, found, Hash.add]
    | some old =>
        simp only [found, nrmSuccess] at code
        simp [empty, code, ensured, found, unchanged, nrmEnotfound]

theorem SensorBase.findOrAddScope_eq (sb : SensorBase α) (uuid : NrmString) :
    sb.findOrAddScope uuid =
      .ok { sb with scopes := ensured sb.scopes uuid ⟨uuid, .empty⟩ } :=
  find_or_create sb.scopes uuid ⟨uuid, .empty⟩ sb (fun scopes => { sb with scopes := scopes }) rfl

theorem EventBase.findOrAddSensor_eq (eb : EventBase α) (uuid : NrmString) :
    eb.findOrAddSensor uuid =
      .ok { eb with sensors := ensured eb.sensors uuid ⟨uuid, .empty⟩ } :=
  find_or_create eb.sensors uuid ⟨uuid, .empty⟩ eb (fun sensors => { eb with sensors := sensors }) rfl

/-- The database of a scope, as a push finds or creates it. -/
def SensorBase.scopeBase (sb : SensorBase α) (uuid : NrmString) : ScopeBase α :=
  (sb.scopes.lookup uuid).getD ⟨uuid, .empty⟩

theorem SensorBase.pushEvent_eq (sb : SensorBase α) (uuid : NrmString) (e : Event α) :
    sb.pushEvent uuid e = .ok ⟨sb.uuid, (ensured sb.scopes uuid ⟨uuid, .empty⟩).modify uuid
      fun _ => (sb.scopeBase uuid).pushEvent e⟩ := by
  simp [SensorBase.pushEvent, findOrAddScope_eq, Hash.find_snd, ensured_lookup_self,
    SensorBase.scopeBase]

theorem SensorBase.content_scopeBase (sb : SensorBase α) (uuid : NrmString) :
    (sb.scopeBase uuid).content = sb.content uuid := by
  rw [SensorBase.scopeBase, SensorBase.content]
  cases sb.scopes.lookup uuid <;> rfl

theorem SensorBase.pushEvent_spec (sb : SensorBase α) (uuid : NrmString) (e : Event α) :
    ∃ after, sb.pushEvent uuid e = .ok after ∧
      (∀ other, (after.content other).Perm
        (if other = uuid then sb.content other ++ [e] else sb.content other)) ∧
      ((sb.scopes.All fun _ sc => sc.Sliced) → after.scopes.All fun _ sc => sc.Sliced) := by
  refine ⟨_, sb.pushEvent_eq uuid e, ?_, ?_⟩
  · intro other
    by_cases same : other = uuid
    · subst same
      have after := (sb.scopeBase other).pushEvent_content e
      rw [sb.content_scopeBase] at after
      simpa [SensorBase.content, ensured_modify_lookup] using after
    · simp only [SensorBase.content, ensured_modify_lookup, same, ↓reduceIte]
      exact List.Perm.refl _
  · intro sliced
    have emptySliced : ScopeBase.Sliced (⟨uuid, .empty⟩ : ScopeBase α) := Data.Table.all_empty _
    have all : (ensured sb.scopes uuid ⟨uuid, .empty⟩).All fun _ sc => sc.Sliced :=
      ensured_all sliced emptySliced
    have scSliced : (sb.scopeBase uuid).Sliced :=
      all.lookup (ensured_lookup_self sb.scopes uuid ⟨uuid, .empty⟩)
    exact all.modify fun _ _ => scSliced.pushEvent e

/-- The database of a sensor, as a push finds or creates it. -/
def EventBase.sensorBase (eb : EventBase α) (uuid : NrmString) : SensorBase α :=
  (eb.sensors.lookup uuid).getD ⟨uuid, .empty⟩

theorem EventBase.pushEvent_eq {eb : EventBase α} {sensorUuid : NrmString} {scope : Scope}
    {time : NrmTime} {value : α} {pushed : SensorBase α}
    (push : (eb.sensorBase sensorUuid).pushEvent scope.uuid ⟨time, value⟩ = .ok pushed) :
    eb.pushEvent sensorUuid (some scope) time value =
      .ok (0, ⟨eb.maxperiods, (ensured eb.sensors sensorUuid ⟨sensorUuid, .empty⟩).modify sensorUuid
        fun _ => pushed⟩) := by
  rw [EventBase.sensorBase] at push
  simp [EventBase.pushEvent, findOrAddSensor_eq, Hash.find_snd, ensured_lookup_self, push]

theorem EventBase.content_sensorBase (eb : EventBase α) (sensorUuid uuid : NrmString) :
    (eb.sensorBase sensorUuid).content uuid = eb.content sensorUuid uuid := by
  rw [EventBase.sensorBase, EventBase.content]
  cases eb.sensors.lookup sensorUuid <;> rfl

/-- A push with a scope always succeeds, adds its event under its sensor and
scope and leaves the content of every other pair alone. -/
theorem EventBase.pushEvent_spec (eb : EventBase α) (sensorUuid : NrmString) (scope : Scope)
    (time : NrmTime) (value : α) :
    ∃ after, eb.pushEvent sensorUuid (some scope) time value = .ok (0, after) ∧
      (∀ sensor uuid, (after.content sensor uuid).Perm
        (if sensor = sensorUuid ∧ uuid = scope.uuid
          then eb.content sensor uuid ++ [⟨time, value⟩] else eb.content sensor uuid)) ∧
      (eb.Sliced → after.Sliced) := by
  obtain ⟨pushed, push, contents, slices⟩ :=
    (eb.sensorBase sensorUuid).pushEvent_spec scope.uuid ⟨time, value⟩
  refine ⟨_, EventBase.pushEvent_eq push, ?_, ?_⟩
  · intro sensor uuid
    by_cases same : sensor = sensorUuid
    · subst same
      have after := contents uuid
      rw [eb.content_sensorBase] at after
      simpa [EventBase.content, ensured_modify_lookup] using after
    · simp only [EventBase.content, ensured_modify_lookup, same, ↓reduceIte, false_and]
      exact List.Perm.refl _
  · intro sliced
    have emptySliced : (⟨sensorUuid, .empty⟩ : SensorBase α).scopes.All fun _ sc => sc.Sliced :=
      Data.Table.all_empty _
    have all : (ensured eb.sensors sensorUuid ⟨sensorUuid, .empty⟩).All
        fun _ sb => sb.scopes.All fun _ sc => sc.Sliced := ensured_all sliced emptySliced
    have sbSliced : (eb.sensorBase sensorUuid).scopes.All fun _ sc => sc.Sliced :=
      all.lookup (ensured_lookup_self eb.sensors sensorUuid ⟨sensorUuid, .empty⟩)
    exact all.modify fun _ _ => slices sbSliced

theorem pullSlices_events (ksince know : Int) (ret : Timeserie α)
    (slices : List (Int × List (Event α))) :
    (EventBase.pullSlices ksince know ret slices).events =
      ret.events ++ (slices.filter fun tl => ksince ≤ tl.1 ∧ tl.1 < know).flatMap Prod.snd := by
  induction slices generalizing ret with
  | nil => simp [EventBase.pullSlices]
  | cons tl rest ih =>
      simp only [EventBase.pullSlices, List.foldl_cons] at ih ⊢
      by_cases inside : tl.1 ≥ ksince ∧ tl.1 < know
      · have kept : decide (ksince ≤ tl.1 ∧ tl.1 < know) = true := by simpa using inside
        rw [if_pos inside, ih, Timeserie.addEvents_events, List.filter_cons, if_pos kept]
        simp
      · have dropped : ¬ decide (ksince ≤ tl.1 ∧ tl.1 < know) = true := by simpa using inside
        rw [if_neg inside, ih, List.filter_cons, if_neg dropped]

theorem ScopeBase.Sliced.filter_slices {sc : ScopeBase α} (sliced : sc.Sliced)
    (selected : Int → Bool) :
    (sc.slices.entries.filter fun tl => selected tl.1).flatMap Prod.snd =
      sc.content.filter fun e => selected (timeToKey e.time) := by
  obtain ⟨uuid, ⟨slices⟩⟩ := sc
  simp only [ScopeBase.content, Data.Table.values]
  induction slices with
  | nil => rfl
  | cons tl rest ih =>
      obtain ⟨key, events⟩ := tl
      have head : ∀ e ∈ events, timeToKey e.time = key := sliced (key, events) List.mem_cons_self
      have tail := ih fun entry member => sliced entry (List.mem_cons_of_mem _ member)
      rw [List.map_cons, List.flatten_cons, List.filter_append, ← tail]
      by_cases inside : selected key
      · have all : events.filter (fun e => selected (timeToKey e.time)) = events := by
          apply List.filter_eq_self.mpr
          intro e member
          rw [head e member]
          exact inside
        rw [List.filter_cons, if_pos inside, List.flatMap_cons, all]
      · have none : events.filter (fun e => selected (timeToKey e.time)) = [] := by
          apply List.filter_eq_nil_iff.mpr
          intro e member
          rw [head e member]
          exact inside
        rw [List.filter_cons, if_neg inside, none, List.nil_append]

theorem EventBase.Sliced.pullTimeserie {eb : EventBase α} (sliced : eb.Sliced)
    (sensorUuid : NrmString) (scope : Scope) (since now : NrmTime) :
    ∃ ts, eb.pullTimeserie sensorUuid (.object scope) since now = .ok ts ∧
      ts.events = (eb.content sensorUuid scope.uuid).filter fun e =>
        timeToKey since ≤ timeToKey e.time ∧ timeToKey e.time < timeToKey now := by
  simp only [EventBase.pullTimeserie, Hash.find_snd, EventBase.content, SensorBase.content]
  cases sensorFound : eb.sensors.lookup sensorUuid with
  | none => exact ⟨_, rfl, rfl⟩
  | some sb =>
      simp only
      cases scopeFound : sb.scopes.lookup scope.uuid with
      | none => exact ⟨_, rfl, rfl⟩
      | some sc =>
          have scSliced : sc.Sliced := (sliced.lookup sensorFound).lookup scopeFound
          refine ⟨_, rfl, ?_⟩
          rw [pullSlices_events]
          simp only [Timeserie.create, List.nil_append]
          exact scSliced.filter_slices fun key => decide (timeToKey since ≤ key ∧ key < timeToKey now)

/-- The calls of `eventbase.h` that a history is made of, with the clock reading of a pull. -/
inductive EventBase.Op (α : Type) where
  | push (sensorUuid : NrmString) (scope : Scope) (time : NrmTime) (value : α)
  | tick (time : NrmTime)
  | pull (sensorUuid : NrmString) (scope : Scope) (since now : NrmTime)

namespace EventBase

def step (eb : EventBase α) : Op α → Exec (EventBase α)
  | .push sensorUuid scope time value => do
      let (_, eb) ← eb.pushEvent sensorUuid (some scope) time value
      pure eb
  | .tick time => pure (eb.tick time)
  | .pull sensorUuid scope since now => do
      let _ ← eb.pullTimeserie sensorUuid (.object scope) since now
      pure eb

def Op.pushed (sensorUuid uuid : NrmString) : Op α → Option (Event α)
  | .push sensor scope time value =>
      if sensor = sensorUuid ∧ scope.uuid = uuid then some ⟨time, value⟩ else none
  | .tick _ | .pull .. => none

/-- The events pushed under a sensor and scope, in arrival order. -/
def pushed (sensorUuid uuid : NrmString) (ops : List (Op α)) : List (Event α) :=
  ops.filterMap (Op.pushed sensorUuid uuid)

/-- Every pushed time is non-negative and representable. -/
def Op.Valid : Op α → Prop
  | .push _ _ time _ => time.Valid
  | .tick _ | .pull .. => True

instance : (op : Op α) → Decidable op.Valid
  | .push _ _ time _ => inferInstanceAs (Decidable time.Valid)
  | .tick _ | .pull .. => inferInstanceAs (Decidable True)

theorem Sliced.step {eb : EventBase α} (sliced : eb.Sliced) (op : Op α) :
    ∃ after, eb.step op = .ok after ∧ after.Sliced ∧
      ∀ sensorUuid uuid, (after.content sensorUuid uuid).Perm
        (eb.content sensorUuid uuid ++ (op.pushed sensorUuid uuid).toList) := by
  cases op with
  | push sensor scope time value =>
      obtain ⟨after, pushes, contents, slices⟩ := eb.pushEvent_spec sensor scope time value
      refine ⟨after, by simp [EventBase.step, pushes], slices sliced, ?_⟩
      intro sensorUuid uuid
      have content := contents sensorUuid uuid
      by_cases here : sensorUuid = sensor ∧ uuid = scope.uuid
      · obtain ⟨rfl, rfl⟩ := here
        simpa [Op.pushed] using content
      · have elsewhere : ¬ (sensor = sensorUuid ∧ scope.uuid = uuid) :=
          fun same => here ⟨same.1.symm, same.2.symm⟩
        rw [if_neg here] at content
        simpa [Op.pushed, elsewhere] using content
  | tick time => exact ⟨eb, rfl, sliced, by simp [Op.pushed]⟩
  | pull sensor scope since now =>
      obtain ⟨ts, pulled, _⟩ := sliced.pullTimeserie sensor scope since now
      exact ⟨eb, by simp [EventBase.step, pulled], sliced, by simp [Op.pushed]⟩

theorem pushed_snoc (sensorUuid uuid : NrmString) (ops : List (Op α)) (op : Op α) :
    pushed sensorUuid uuid (ops ++ [op]) =
      pushed sensorUuid uuid ops ++ (op.pushed sensorUuid uuid).toList := by
  simp only [pushed, List.filterMap_append]
  cases found : op.pushed sensorUuid uuid <;> simp [found]

theorem run_content (maxperiods : Nat) (ops : List (Op α)) :
    ∃ eb, Data.run step (create maxperiods) ops = .ok eb ∧ eb.Sliced ∧
      ∀ sensorUuid uuid, (eb.content sensorUuid uuid).Perm (pushed sensorUuid uuid ops) := by
  induction ops using List.reverseRecOn with
  | nil =>
      refine ⟨create maxperiods, rfl, Data.Table.all_empty _, ?_⟩
      intro sensorUuid uuid
      simp [EventBase.content, create, pushed]
  | append_singleton ops op ih =>
      obtain ⟨eb, ran, sliced, contents⟩ := ih
      obtain ⟨after, stepped, slicedAfter, extended⟩ := sliced.step op
      refine ⟨after, by rw [Data.run_snoc op ran, stepped], slicedAfter, ?_⟩
      intro sensorUuid uuid
      rw [pushed_snoc]
      exact (extended sensorUuid uuid).trans ((contents sensorUuid uuid).append_right _)

/-- Both ends of a window are rounded to slices, and so is the time of an
event; for a time that is not negative the two roundings agree. -/
theorem window_iff {ns since now : Int} (nonneg : 0 ≤ ns) :
    (sliceKey since ≤ sliceKey ns ∧ sliceKey ns < sliceKey now) ↔
      (1000 * (since / 1000) ≤ ns ∧ ns < 1000 * (now / 1000)) := by
  have key := sliceKey_of_nonneg nonneg
  rcases lt_or_ge since 0 with sinceNeg | sinceNonneg <;>
    rcases lt_or_ge now 0 with nowNeg | nowNonneg
  · have := sliceKey_of_neg sinceNeg
    have := sliceKey_of_neg nowNeg
    omega
  · have := sliceKey_of_neg sinceNeg
    have := sliceKey_of_nonneg nowNonneg
    omega
  · have := sliceKey_of_nonneg sinceNonneg
    have := sliceKey_of_neg nowNeg
    omega
  · have := sliceKey_of_nonneg sinceNonneg
    have := sliceKey_of_nonneg nowNonneg
    omega

/-- After any history a pull returns the events pushed under its sensor and
scope whose time is inside the rounded window, each as often as it was pushed,
and leaves the database as it was. -/
theorem pullTimeserie_exact (maxperiods : Nat) (ops : List (Op α))
    (valid : ∀ op ∈ ops, op.Valid) (sensorUuid : NrmString) (scope : Scope) (since now : NrmTime) :
    ∃ eb ts, Data.run step (create maxperiods) ops = .ok eb ∧
      eb.pullTimeserie sensorUuid (.object scope) since now = .ok ts ∧
      ts.events.Perm ((pushed sensorUuid scope.uuid ops).filter fun e =>
        1000 * (since.tons / 1000) ≤ e.time.tons ∧ e.time.tons < 1000 * (now.tons / 1000)) ∧
      eb.step (.pull sensorUuid scope since now) = .ok eb := by
  obtain ⟨eb, ran, sliced, contents⟩ := run_content maxperiods ops
  obtain ⟨ts, pulled, events⟩ := sliced.pullTimeserie sensorUuid scope since now
  refine ⟨eb, ts, ran, pulled, ?_, by simp [EventBase.step, pulled]⟩
  rw [events]
  refine ((contents sensorUuid scope.uuid).filter _).trans (List.Perm.of_eq ?_)
  apply List.filter_congr
  intro e member
  have validTime : e.time.Valid := by
    obtain ⟨op, inOps, found⟩ := List.mem_filterMap.mp member
    have validOp := valid op inOps
    cases op with
    | push sensor other time value =>
        simp only [Op.pushed, Option.ite_none_right_eq_some, Option.some.injEq] at found
        rw [← found.2]
        exact validOp
    | tick time => simp [Op.pushed] at found
    | pull _ _ _ _ => simp [Op.pushed] at found
  simp only [timeToKey, window_iff validTime.tons_nonneg]

/-- Two sensors, one scope, out of order: the window from 1900 to 4100 takes the
slices of 1000 to 3999. -/
def sampleOps : List (Op ℚ) :=
  [.push [115] (scopeCreate [103]) ⟨0, 2500⟩ 1, .tick ⟨0, 2600⟩,
    .push [116] (scopeCreate [103]) ⟨0, 2500⟩ 7, .push [115] (scopeCreate [103]) ⟨0, 1200⟩ 2,
    .pull [115] (scopeCreate [103]) ⟨0, 0⟩ ⟨0, 2000⟩, .push [115] (scopeCreate [103]) ⟨0, 4000⟩ 3]

theorem sampleOps_pull :
    ∃ eb ts, Data.run step (create 5) sampleOps = .ok eb ∧
      eb.pullTimeserie [115] (.object (scopeCreate [103])) ⟨0, 1900⟩ ⟨0, 4100⟩ = .ok ts ∧
      ts.events.Perm [⟨⟨0, 2500⟩, 1⟩, ⟨⟨0, 1200⟩, 2⟩] := by
  have valid : ∀ op ∈ sampleOps, op.Valid := by decide
  obtain ⟨eb, ts, ran, pulled, events, _⟩ :=
    pullTimeserie_exact 5 sampleOps valid [115] (scopeCreate [103]) ⟨0, 1900⟩ ⟨0, 4100⟩
  exact ⟨eb, ts, ran, pulled, events⟩

end EventBase

end LibNrm
