import LibNrm.Preloads.Placement

namespace LibNrm.Geopm

/-! For each domain of a signal `nrm-geopm` makes a scope, looks for one of the daemon with
the same resources, and sends its events with what it ends up with.  A search that finds
nothing says so in `added_scope`, which nobody reads.  What GEOPM knows is a parameter.
-/

/-- `geopm_topo.h` and `geopm_pio.h`, as far as they are used. -/
structure Topo where
  /-- `GEOPM_DOMAIN_PACKAGE` -/
  package : Int
  /-- `GEOPM_DOMAIN_GPU` -/
  gpu : Int
  numDomain : Int → Int
  /-- the processors of a package -/
  domainNested : Nat → List UInt32
  /-- `none` for an error -/
  domainName : Int → Option NrmString
  signalDomainType : NrmString → Int

/-- `nrm_geopm_domain_to_scope` -/
def domainToScope (topo : Topo) (scope : Scope) (domainType : Int) (domainIdx : Nat) : Scope :=
  if domainType = topo.package then scopeAddEach scope .cpu (topo.domainNested domainIdx)
  else if domainType = topo.gpu then (scopeAdd scope .gpu domainIdx).2
  else scope

/-- nrm.geopm. -/
def geopmNamespace : NrmString := [110, 114, 109, 46, 103, 101, 111, 112, 109, 46]

def scopeName (event domainName : NrmString) (i : Nat) : NrmString :=
  geopmNamespace ++ (event ++ 46 :: (domainName ++ 46 :: decimal i))

/-- `nrm_geopm_eventinfo_t` -/
structure EventInfo where
  name : NrmString
  domainType : Int
  numDomains : Nat
  sensor : NrmString
  scopes : List Nat

def domainScope (topo : Topo) (event domainName : NrmString) (domainType : Int) (i : Nat) : Scope :=
  domainToScope topo (scopeCreate (scopeName event domainName i)) domainType i

/-- The loop of `nrm_geopm_prepare_event` up to a domain; `listing` is what the daemon
has when it is asked for the scopes of a domain. -/
def prepareScopes (candidate : Nat → Scope) (listing : Nat → List Scope) (heap : ScopeHeap) :
    Nat → Exec (ScopeHeap × List Nat)
  | 0 => .ok (heap, [])
  | i + 1 => do
      let (heap, scopes) ← prepareScopes candidate listing heap i
      let (heap, scope) := heap.create (candidate i)
      let (heap, _, scope, _) ← heap.geopmFindScope scope (listing i)
      pure (heap, scopes ++ [scope])

/-- `nrm_geopm_prepare_event`, without the addition of its sensor. -/
def prepareEvent (topo : Topo) (listing : Nat → List Scope) (heap : ScopeHeap) (s : NrmString) :
    Exec (ScopeHeap × EventInfo) := do
  let domainType := topo.signalDomainType s
  if ¬ 0 < domainType then .error .assertionFailed
  else
    let numDomains := topo.numDomain domainType
    if ¬ 0 < numDomains then .error .assertionFailed
    else
      match topo.domainName domainType with
      | none => .error .assertionFailed
      | some domainName => do
          let (heap, scopes) ← prepareScopes (domainScope topo s domainName domainType) listing heap
            numDomains.toNat
          pure (heap, ⟨s, domainType, numDomains.toNat, geopmNamespace ++ s, scopes⟩)

def timerSend (heap : ScopeHeap) (event : EventInfo) (readSignal : Nat → V) (i : Nat) :
    Exec (NrmString × Scope × V) :=
  match event.scopes[i]? with
  | none => .error .nullDereference
  | some s => do
      let scope ← heap.read s
      pure (event.sensor, scope, readSignal i)

/-- What `nrm_geopm_timer_callback` sends for an event. -/
def timerSends (heap : ScopeHeap) (event : EventInfo) (readSignal : Nat → V) :
    Exec (List (NrmString × Scope × V)) :=
  (List.range event.numDomains).mapM (timerSend heap event readSignal)

theorem scopeDestroy_frame {heap after : ScopeHeap} {s other : Nat}
    (gone : heap.scopeDestroy s = .ok after) (apart : other ≠ s) :
    after.scopes other = heap.scopes other ∧ after.next = heap.next := by
  unfold ScopeHeap.scopeDestroy at gone
  split at gone
  · cases gone
    exact ⟨Function.update_of_ne apart _ _, rfl⟩
  · cases gone

theorem matchScopes_frame {count : Nat} {heap after : ScopeHeap} {vector : List Nat} {scope found : Nat}
    {newscope new : Bool}
    (ran : heap.matchScopes count vector scope newscope = .ok (after, found, new)) {other : Nat}
    (apart : other ≠ scope) (unlisted : other ∉ vector) :
    after.scopes other = heap.scopes other ∧ after.next = heap.next := by
  induction count generalizing heap vector scope newscope with
  | zero =>
      cases ran
      exact ⟨rfl, rfl⟩
  | succ count ih =>
      simp only [ScopeHeap.matchScopes] at ran
      split at ran
      · cases ran
      · rename_i s last
        have listed : s ∈ vector := List.mem_of_getLast? last
        have different : other ≠ s := fun same => unlisted (same ▸ listed)
        have rest : other ∉ vector.dropLast := fun member => unlisted (List.mem_of_mem_dropLast member)
        obtain ⟨one, -, ran⟩ := Exec.bind_eq_ok.mp ran
        obtain ⟨two, -, ran⟩ := Exec.bind_eq_ok.mp ran
        split at ran
        · obtain ⟨between, gone, ran⟩ := Exec.bind_eq_ok.mp ran
          obtain ⟨same, next⟩ := scopeDestroy_frame gone apart
          obtain ⟨later, nextLater⟩ := ih ran different rest
          exact ⟨later.trans same, nextLater.trans next⟩
        · obtain ⟨between, gone, ran⟩ := Exec.bind_eq_ok.mp ran
          obtain ⟨same, next⟩ := scopeDestroy_frame gone different
          obtain ⟨later, nextLater⟩ := ih ran apart rest
          exact ⟨later.trans same, nextLater.trans next⟩

/-- The scope a search ends with: the first one of the daemon with the resources of the
candidate, or the candidate. -/
def Chosen (candidate : Scope) (registered : List Scope) (scope : Scope) : Prop :=
  (∃ i, ScopeHeap.FirstAlike candidate registered i ∧ registered[i]? = some scope) ∨
    ((∀ s ∈ registered, ¬ ScopeHeap.SameSets s candidate) ∧ scope = candidate)

theorem clientListScopes_next (registered : List Scope) (heap : ScopeHeap) :
    (heap.clientListScopes registered).1.next = heap.next + registered.length := by
  induction registered generalizing heap with
  | nil => rfl
  | cons scope registered ih =>
      simp only [ScopeHeap.clientListScopes, ih, ScopeHeap.create, List.length_cons]
      omega

theorem geopmFindScope_frame {candidate : Scope} {heap after : ScopeHeap} {registered : List Scope}
    {code added : Int} {s : Nat}
    (ran : (heap.create candidate).1.geopmFindScope heap.next registered = .ok (after, code, s, added)) :
    after.next = heap.next + 1 + registered.length ∧
      ∀ other < heap.next, after.scopes other = heap.scopes other := by
  obtain ⟨addresses, -, before, -⟩ := ScopeHeap.clientListScopes_spec registered (heap.create candidate).1
  have listed := clientListScopes_next registered (heap.create candidate).1
  unfold ScopeHeap.geopmFindScope at ran
  simp only at ran
  obtain ⟨⟨last, scope, newscope⟩, matched, ended⟩ := Exec.bind_eq_ok.mp ran
  cases ended
  have frame : ∀ other ≠ heap.next, other ∉ List.range' (heap.next + 1) registered.length →
      last.scopes other = ((heap.create candidate).1.clientListScopes registered).1.scopes other ∧
        last.next = ((heap.create candidate).1.clientListScopes registered).1.next := by
    intro other apart unlisted
    refine matchScopes_frame matched apart ?_
    rw [addresses]
    exact unlisted
  constructor
  · have beyond := frame (heap.next + 1 + registered.length) (by omega) (by
      rw [List.mem_range'_1]
      omega)
    exact beyond.2.trans listed
  · intro other old
    have untouched := frame other (by omega) (by
      rw [List.mem_range'_1]
      omega)
    rw [untouched.1, before other (Nat.lt_succ_of_lt old), heap.create_scopes_of_lt candidate old]

theorem geopmFindScope_chooses (candidate : Scope) (heap : ScopeHeap) (registered : List Scope) :
    ∃ after code s added scope,
      (heap.create candidate).1.geopmFindScope heap.next registered = .ok (after, code, s, added) ∧
      s < after.next ∧ after.scopes s = some scope ∧ Chosen candidate registered scope := by
  obtain ⟨first, none⟩ := ScopeHeap.geopmFindScope_findsFirst candidate heap registered
  have addresses := (ScopeHeap.clientListScopes_spec registered (heap.create candidate).1).1
  by_cases alike : ∃ scope ∈ registered, ScopeHeap.SameSets scope candidate
  · obtain ⟨i, earliest⟩ := exists_firstAlike alike
    obtain ⟨after, s, listed, ran, content, -⟩ := first i earliest
    obtain ⟨scope, there, -⟩ := earliest.1
    have known : s < after.next := by
      have member := List.mem_of_getElem? listed
      rw [addresses, List.mem_range'_1] at member
      rw [(geopmFindScope_frame ran).1]
      exact member.2
    exact ⟨after, _, s, _, scope, ran, known, content.trans there, .inl ⟨i, earliest, there⟩⟩
  · have unlike : ∀ s ∈ registered, ¬ ScopeHeap.SameSets s candidate := by
      intro s member same
      exact alike ⟨s, member, same⟩
    obtain ⟨after, ran, content, -⟩ := none unlike
    have known : heap.next < after.next := by
      rw [(geopmFindScope_frame ran).1]
      omega
    exact ⟨after, _, _, _, candidate, ran, known, content, .inr ⟨unlike, rfl⟩⟩

theorem prepareScopes_spec (candidate : Nat → Scope) (listing : Nat → List Scope) (heap : ScopeHeap)
    (count : Nat) :
    ∃ after scopes, prepareScopes candidate listing heap count = .ok (after, scopes) ∧
      scopes.length = count ∧ ∀ i < count, ∃ s scope, scopes[i]? = some s ∧ s < after.next ∧
        after.scopes s = some scope ∧ Chosen (candidate i) (listing i) scope := by
  induction count with
  | zero => exact ⟨heap, [], rfl, rfl, fun i impossible => absurd impossible i.not_lt_zero⟩
  | succ count ih =>
      obtain ⟨before, scopes, prepared, length, chosen⟩ := ih
      obtain ⟨after, code, s, added, scope, ran, known, content, choice⟩ :=
        geopmFindScope_chooses (candidate count) before (listing count)
      obtain ⟨next, frame⟩ := geopmFindScope_frame ran
      refine ⟨after, scopes ++ [s], ?_, by simp [length], ?_⟩
      · simp only [prepareScopes, prepared, Exec.ok_bind]
        rw [show (before.create (candidate count)).2 = before.next from rfl, ran]
        rfl
      · intro i inside
        obtain earlier | rfl := Nat.lt_succ_iff_lt_or_eq.mp inside
        · obtain ⟨older, chosenScope, there, old, olderContent, olderChoice⟩ := chosen i earlier
          refine ⟨older, chosenScope, ?_, by omega, (frame older old).trans olderContent, olderChoice⟩
          rw [List.getElem?_append_left (by omega)]
          exact there
        · refine ⟨s, scope, ?_, known, content, choice⟩
          rw [List.getElem?_append_right (by omega), length, Nat.sub_self]
          rfl

theorem mem_addScopes {table : Hash Scope} {scopes : List Scope} {scope : Scope}
    (listed : scope ∈ (addScopes table scopes).values) : scope ∈ table.values ∨ scope ∈ scopes := by
  induction scopes generalizing table with
  | nil => exact .inl listed
  | cons first scopes ih =>
      obtain added | later := ih listed
      · change scope ∈ (table.add first.uuid first).2.values at added
        cases found : table.lookup first.uuid with
        | none =>
            rw [Hash.add_of_absent first found, Data.Table.values, Data.Table.append,
              List.map_append, List.mem_append] at added
            obtain old | new := added
            · exact .inl old
            · obtain rfl : scope = first := by simpa using new
              exact .inr List.mem_cons_self
        | some old =>
            rw [Hash.add_of_present first found] at added
            exact .inl added
      · exact .inr (List.mem_cons_of_mem _ later)

theorem bit_setEach {map : Bitmap} {bits : List UInt32} {i : Nat} (inside : i < bitmapMax)
    (set : map.bit i = true ∨ ∃ bit ∈ bits, bit.toNat = i) : (map.setEach bits).bit i = true := by
  induction bits generalizing map with
  | nil =>
      obtain already | ⟨bit, ⟨⟩, -⟩ := set
      exact already
  | cons bit bits ih =>
      apply ih
      rw [Bitmap.bit_set map bit.toNat inside]
      obtain already | ⟨other, member, rfl⟩ := set
      · simp [already]
      · obtain rfl | later := List.mem_cons.mp member
        · simp
        · exact .inr ⟨other, later, rfl⟩

theorem ne_reset_of_bit {map : Bitmap} {i : Nat} (set : map.bit i = true) : map ≠ .reset := by
  rintro rfl
  rw [Bitmap.bit_reset] at set
  cases set

/-- What hwloc says about nodes and devices: no object is without a node, and the numbers of
the nodes and of the devices fit the 2048 bits of a set. -/
structure Placed (topology : Topology) : Prop where
  nodes : ∀ object ∈ topology.objects, object.nodeset ≠ [] ∧
    ∀ node ∈ object.nodeset, node.toNat < bitmapMax
  devices : topology.osDevices.length ≤ bitmapMax

def Somewhere (scope : Scope) : Prop := scope.numa ≠ .reset ∨ scope.gpu ≠ .reset

theorem somewhere_gpuScopes {subdevices : Bool} {counter : Nat} {devices : List OsDevice}
    (fits : counter + devices.length ≤ bitmapMax) :
    ∀ scope ∈ gpuScopes subdevices counter devices, Somewhere scope := by
  induction devices generalizing counter with
  | nil => exact fun _ => nofun
  | cons object devices ih =>
      rw [List.length_cons] at fits
      simp only [gpuScopes]
      split
      · exact ih (by omega)
      · split
        · exact ih (by omega)
        · refine List.forall_mem_cons.mpr ⟨.inr (ne_reset_of_bit (i := counter) ?_), ih (by omega)⟩
          simp only [scopeAdd, scopeCreate]
          rw [Bitmap.bit_set _ counter (by omega)]
          simp

theorem mem_topologyScopes {topology : Topology} {scope : Scope} (listed : scope ∈ topology.scopes) :
    (∃ object ∈ topology.objects, scope = object.scope ∨
      ∃ bit ∈ object.nodeset, scope = object.nodeScope bit) ∨
    scope ∈ gpuScopes (hasSubdevices topology.osDevices) 0 topology.osDevices := by
  rcases List.mem_append.mp listed with ofObject | gpu
  · obtain ⟨object, member, listed⟩ := List.mem_flatMap.mp ofObject
    refine .inl ⟨object, member, ?_⟩
    simp only [HwlocObject.scopes] at listed
    split at listed
    · cases listed
    · rcases List.mem_cons.mp listed with rfl | node
      · exact .inl rfl
      · split at node
        · obtain ⟨bit, near, rfl⟩ := List.mem_map.mp node
          exact .inr ⟨bit, near, rfl⟩
        · cases node
  · exact .inr gpu

theorem Placed.somewhere {topology : Topology} (placed : Placed topology) :
    ∀ scope ∈ topology.scopes, Somewhere scope := by
  intro scope listed
  obtain ⟨object, member, rfl | ⟨bit, near, rfl⟩⟩ | gpu := mem_topologyScopes listed
  · obtain ⟨filled, fits⟩ := placed.nodes object member
    obtain ⟨node, near⟩ := List.exists_mem_of_ne_nil _ filled
    rw [object.scope_eq]
    exact .inl (ne_reset_of_bit (bit_setEach (fits node near) (.inr ⟨node, near, rfl⟩)))
  · have fits := (placed.nodes object member).2 bit near
    rw [object.nodeScope_eq]
    exact .inl (ne_reset_of_bit (bit_setEach fits (.inr ⟨bit, List.mem_singleton_self bit, rfl⟩)))
  · exact somewhere_gpuScopes (by simpa using placed.devices) scope gpu

theorem hwlocName_fifth (parts : List NrmString) :
    (stringFromchar (LibNrm.scopeName parts))[4]? = some 104 := by
  simp [stringFromchar, LibNrm.scopeName, hwlocNamespace]

theorem geopmName_fifth (event domainName : NrmString) (i : Nat) :
    (stringFromchar (scopeName event domainName i))[4]? = some 103 := by
  simp [stringFromchar, scopeName, geopmNamespace]

theorem gpuScopes_fifth {subdevices : Bool} {counter : Nat} {devices : List OsDevice} :
    ∀ scope ∈ gpuScopes subdevices counter devices, scope.uuid[4]? = some 104 := by
  induction devices generalizing counter with
  | nil => exact fun _ => nofun
  | cons object devices ih =>
      simp only [gpuScopes]
      split
      · exact ih
      · split
        · exact ih
        · exact List.forall_mem_cons.mpr ⟨hwlocName_fifth _, ih⟩

theorem hwloc_fifth {topology : Topology} : ∀ scope ∈ topology.scopes, scope.uuid[4]? = some 104 := by
  intro scope listed
  obtain ⟨object, -, rfl | ⟨bit, -, rfl⟩⟩ | gpu := mem_topologyScopes listed
  · rw [object.scope_eq]
    exact hwlocName_fifth _
  · rw [object.nodeScope_eq]
    exact hwlocName_fifth _
  · exact gpuScopes_fifth scope gpu

/-- The scopes that were added since the daemon started. -/
def addedScopes (topology : Topology) (server : Server Daemon) : List Scope :=
  server.state.scopes.values.drop (scopeHwlocScopes .empty topology).values.length

section Serving

variable {libm : Libm ℚ} {accept : Daemon → Actuator → ℚ → Int} {topology : Topology}
  {server : Server Daemon}

theorem mem_addedScopes (serving : Nrmd.Serving libm accept topology server) {scope : Scope}
    (listed : scope ∈ server.state.scopes.values) :
    scope ∈ topology.scopes ∨ scope ∈ addedScopes topology server := by
  obtain ⟨start, ops, started, ran⟩ := serving
  have kept := Nrmd.run_scopes ran
  rw [started] at kept
  obtain ⟨later, values⟩ := kept.map Prod.snd
  have split : server.state.scopes.values = (scopeHwlocScopes .empty topology).values ++ later :=
    values.symm
  rw [split] at listed
  obtain first | added := List.mem_append.mp listed
  · obtain ⟨⟨⟩⟩ | made := mem_addScopes first
    exact .inl made
  · right
    rw [addedScopes, split, List.drop_left]
    exact added

theorem domainScope_nowhere {topo : Topo} {domainType : Int}
    (noGpu : domainType = topo.package ∨ domainType ≠ topo.gpu) (event domainName : NrmString) (i : Nat) :
    ¬ Somewhere (domainScope topo event domainName domainType i) ∧
      (domainScope topo event domainName domainType i).uuid =
        stringFromchar (scopeName event domainName i) := by
  unfold domainScope domainToScope
  split
  · rw [scopeAddEach_eq]
    simp [Somewhere, scopeCreate]
  · rename_i other
    rw [if_neg (noGpu.resolve_left other)]
    simp [Somewhere, scopeCreate]

theorem Chosen.unlisted (placed : Placed topology) (serving : Nrmd.Serving libm accept topology server)
    {candidate scope : Scope} (nowhere : ¬ Somewhere candidate)
    (chosen : Chosen candidate server.state.scopes.values scope) :
    scope ∈ addedScopes topology server ∨ scope = candidate := by
  obtain ⟨i, ⟨⟨s, there, -, nodes, gpus⟩, -⟩, found⟩ | ⟨-, same⟩ := chosen
  · obtain rfl : s = scope := Option.some.inj (there.symm.trans found)
    obtain made | added := mem_addedScopes serving (List.mem_of_getElem? found)
    · have somewhere := placed.somewhere s made
      rw [Somewhere, nodes, gpus] at somewhere
      exact absurd somewhere nowhere
    · exact .inl added
  · exact .inr same

/-- Names of scopes that only a client can have brought into a listing. -/
def Unlisted (libm : Libm ℚ) (accept : Daemon → Actuator → ℚ → Int) (topology : Topology)
    (uuid : NrmString) : Prop :=
  ∀ later, Nrmd.Serving libm accept topology later → ∀ listed ∈ later.state.scopes.values,
    listed.uuid = uuid → listed ∈ addedScopes topology later

theorem scopeName_unlisted (event domainName : NrmString) (i : Nat) :
    Unlisted libm accept topology (stringFromchar (scopeName event domainName i)) := by
  intro later serving listed member same
  obtain made | added := mem_addedScopes serving member
  · have hwloc := hwloc_fifth listed made
    rw [same, geopmName_fifth] at hwloc
    cases hwloc
  · exact added

end Serving

theorem getElem?_of_forall₂_range {related : Nat → A → Prop} {count : Nat} {results : List A}
    (each : List.Forall₂ related (List.range count) results) {i : Nat} (inside : i < count) :
    ∃ result, results[i]? = some result ∧ related i result := by
  have length := each.length_eq
  rw [List.length_range] at length
  have there : i < results.length := by omega
  refine ⟨results[i], List.getElem?_eq_getElem there, ?_⟩
  have related := (List.forall₂_iff_get.mp each).2 i (by simpa using inside) there
  simpa using related

theorem timerSends_spec {heap : ScopeHeap} {event : EventInfo} {good : Nat → Scope → Prop}
    (ready : ∀ i < event.numDomains, ∃ s scope, event.scopes[i]? = some s ∧
      heap.scopes s = some scope ∧ good i scope) (value : Nat → V) :
    ∃ sends, timerSends heap event value = .ok sends ∧ sends.length = event.numDomains ∧
      ∀ i < event.numDomains, ∃ scope, sends[i]? = some (event.sensor, scope, value i) ∧
        good i scope := by
  have stepped : ∀ i ∈ List.range event.numDomains, ∃ send, timerSend heap event value i = .ok send ∧
      ∃ scope, send = (event.sensor, scope, value i) ∧ good i scope := by
    intro i inside
    obtain ⟨s, scope, there, content, placed⟩ := ready i (List.mem_range.mp inside)
    refine ⟨(event.sensor, scope, value i), ?_, scope, rfl, placed⟩
    simp only [timerSend, there, ScopeHeap.read, content, Exec.ok_bind, Exec.pure_eq_ok]
  obtain ⟨sends, sent, each⟩ := Exec.mapM_ok stepped
  have count := each.length_eq
  rw [List.length_range] at count
  refine ⟨sends, sent, count.symm, ?_⟩
  intro i inside
  obtain ⟨send, there, scope, rfl, placed⟩ := getElem?_of_forall₂_range each inside
  exact ⟨scope, there, placed⟩

/-- `nrm-geopm` never puts an event of packages, cores or processors on a scope of the
machine: whatever GEOPM says and whatever other clients do, each of these events goes out
with a scope that some client has added, or with the one `nrm-geopm` made for the domain,
whose name no listing has, then or later, unless some client has added it. -/
theorem geopm_events_unlisted {libm : Libm ℚ} {accept : Daemon → Actuator → ℚ → Int}
    {topology : Topology} (placed : Placed topology) (topo : Topo) (signal : NrmString)
    {domainName : NrmString} (known : 0 < topo.signalDomainType signal)
    (present : 0 < topo.numDomain (topo.signalDomainType signal))
    (named : topo.domainName (topo.signalDomainType signal) = some domainName)
    (noGpu : topo.signalDomainType signal = topo.package ∨ topo.signalDomainType signal ≠ topo.gpu)
    {asked : Nat → Server Daemon} (serving : ∀ i, Nrmd.Serving libm accept topology (asked i))
    (heap : ScopeHeap) (value : Nat → V) :
    (∀ i, Nrmd.ListsScopes libm accept (asked i) (asked i).state.scopes.values) ∧
    ∃ after event sends,
      prepareEvent topo (fun i => (asked i).state.scopes.values) heap signal = .ok (after, event) ∧
      timerSends after event value = .ok sends ∧
      sends.length = (topo.numDomain (topo.signalDomainType signal)).toNat ∧
      ∀ i < sends.length, ∃ scope, sends[i]? = some (geopmNamespace ++ signal, scope, value i) ∧
        (scope ∈ addedScopes topology (asked i) ∨
          scope = domainScope topo signal domainName (topo.signalDomainType signal) i ∧
            scope.uuid = stringFromchar (scopeName signal domainName i) ∧
            Unlisted libm accept topology scope.uuid) := by
  refine ⟨fun i => (serving i).lists, ?_⟩
  obtain ⟨after, scopes, prepared, length, chosen⟩ := prepareScopes_spec
    (domainScope topo signal domainName (topo.signalDomainType signal))
    (fun i => (asked i).state.scopes.values) heap
    (topo.numDomain (topo.signalDomainType signal)).toNat
  have placedAt : ∀ i scope, Chosen (domainScope topo signal domainName (topo.signalDomainType signal) i)
      (asked i).state.scopes.values scope →
      scope ∈ addedScopes topology (asked i) ∨
        scope = domainScope topo signal domainName (topo.signalDomainType signal) i ∧
          scope.uuid = stringFromchar (scopeName signal domainName i) ∧
          Unlisted libm accept topology scope.uuid := by
    intro i scope choice
    obtain ⟨nowhere, name⟩ := domainScope_nowhere noGpu signal domainName i
    obtain added | rfl := Chosen.unlisted placed (serving i) nowhere choice
    · exact .inl added
    · have unlisted := @scopeName_unlisted libm accept topology signal domainName i
      exact .inr ⟨rfl, name, name ▸ unlisted⟩
  let event : EventInfo := ⟨signal, topo.signalDomainType signal,
    (topo.numDomain (topo.signalDomainType signal)).toNat, geopmNamespace ++ signal, scopes⟩
  have ready : prepareEvent topo (fun i => (asked i).state.scopes.values) heap signal =
      .ok (after, event) := by
    simp only [prepareEvent, not_not.mpr known, not_not.mpr present, if_false, named, prepared,
      Exec.ok_bind, Exec.pure_eq_ok, event]
  obtain ⟨sends, sent, count, placement⟩ := @timerSends_spec V after event
    (fun i scope => scope ∈ addedScopes topology (asked i) ∨
      scope = domainScope topo signal domainName (topo.signalDomainType signal) i ∧
        scope.uuid = stringFromchar (scopeName signal domainName i) ∧
        Unlisted libm accept topology scope.uuid)
    (by
      intro i inside
      obtain ⟨s, scope, there, -, content, choice⟩ := chosen i inside
      exact ⟨s, scope, there, content, placedAt i scope choice⟩) value
  refine ⟨after, event, sends, ready, sent, count, ?_⟩
  intro i inside
  rw [count] at inside
  exact placement i inside

def sampleTopo : Topo where
  package := 2
  gpu := 9
  numDomain := fun _ => 2
  domainNested := fun i => [UInt32.ofNat i]
  domainName := fun _ => some [112, 107, 103]
  signalDomainType := fun _ => 2

theorem twoNodes_placed : Placed Nrmd.twoNodes where
  nodes := by
    simp [Nrmd.twoNodes, Topology.objects, bitmapMax]
  devices := show 1 ≤ 2048 by omega

theorem onTwoNodes_serving :
    Nrmd.Serving ⟨fun _ => 1, fun _ => 0⟩ Nrmd.actuateCallback Nrmd.twoNodes Nrmd.onTwoNodes :=
  ⟨Nrmd.onTwoNodes, [], rfl, rfl⟩

/-- Both events of a signal `E` are on scopes of no listing. -/
theorem geopm_events_unlisted_sample :
    ∃ after event sends,
      prepareEvent sampleTopo (fun _ => Nrmd.onTwoNodes.state.scopes.values) ⟨fun _ => none, 0, []⟩ [69] =
        .ok (after, event) ∧
      timerSends after event (fun i => i) = .ok sends ∧ sends.length = 2 ∧
      ∀ i < 2, ∃ scope, sends[i]? = some (geopmNamespace ++ [69], scope, i) ∧
        scope = domainScope sampleTopo [69] [112, 107, 103] 2 i ∧
        scope.uuid = stringFromchar (scopeName [69] [112, 107, 103] i) ∧
        scope ∉ Nrmd.onTwoNodes.state.scopes.values := by
  have alone : addedScopes Nrmd.twoNodes Nrmd.onTwoNodes = [] := List.drop_length
  obtain ⟨-, after, event, sends, prepared, sent, count, placement⟩ :=
    geopm_events_unlisted twoNodes_placed sampleTopo [69] (by decide) (by decide)
      (show sampleTopo.domainName 2 = some [112, 107, 103] from rfl) (.inl rfl)
      (fun _ => onTwoNodes_serving) ⟨fun _ => none, 0, []⟩ (fun i => i)
  have two : sends.length = 2 := count
  refine ⟨after, event, sends, prepared, sent, two, ?_⟩
  intro i inside
  obtain ⟨scope, there, added | ⟨own, name, unlisted⟩⟩ := placement i (by omega)
  · rw [alone] at added
    cases added
  · refine ⟨scope, there, own, name, ?_⟩
    intro listed
    have added := unlisted _ onTwoNodes_serving scope listed rfl
    rw [alone] at added
    cases added

end LibNrm.Geopm
