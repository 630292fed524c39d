import LibNrm.Daemon.Listing
import LibNrm.Hwloc
import LibNrm.Preloads.Scopes

namespace LibNrm

theorem gpuScopes_nulFree (subdevices : Bool) (counter : Nat) (devices : List OsDevice) :
    ∀ scope ∈ gpuScopes subdevices counter devices, NulFree scope.uuid := by
  induction devices generalizing counter with
  | nil => simp [gpuScopes]
  | cons object rest ih =>
      simp only [gpuScopes]
      split
      · exact ih counter
      · split
        · exact ih counter
        · exact List.forall_mem_cons.mpr ⟨stringFromchar_nulFree _, ih (counter + 1)⟩

theorem HwlocObject.scopes_nulFree (object : HwlocObject) : ∀ scope ∈ object.scopes, NulFree scope.uuid := by
  intro scope listed
  simp only [HwlocObject.scopes] at listed
  split at listed
  · cases listed
  · rcases List.mem_cons.mp listed with rfl | node
    · rw [object.scope_eq]
      exact stringFromchar_nulFree _
    · split at node
      · obtain ⟨bit, _, rfl⟩ := List.mem_map.mp node
        rw [object.nodeScope_eq]
        exact stringFromchar_nulFree _
      · cases node

theorem Topology.scopes_nulFree (topology : Topology) : ∀ scope ∈ topology.scopes, NulFree scope.uuid := by
  intro scope listed
  rcases List.mem_append.mp listed with object | gpu
  · obtain ⟨object, _, listed⟩ := List.mem_flatMap.mp object
    exact object.scopes_nulFree scope listed
  · exact gpuScopes_nulFree _ _ _ scope gpu

def Scope.discovered (scope : Scope) : Discovered := ⟨scope.uuid, scope.cpu, scope.numa, scope.gpu⟩

/-- The loops of `nrm_scope_hwloc_scopes` are additions to the registry. -/
theorem hwlocScopes_discovered {scopes : List Scope} (free : ∀ scope ∈ scopes, NulFree scope.uuid)
    (state : State) :
    { state with scopes := addScopes state.scopes scopes } =
      state.hwlocScopes (scopes.map Scope.discovered) := by
  induction scopes generalizing state with
  | nil => rfl
  | cons scope scopes ih =>
      obtain ⟨first, rest⟩ := List.forall_mem_cons.mp free
      have same : scope.discovered.scope = scope := by
        simp [Scope.discovered, Discovered.scope, scopeCreate, stringFromchar_of_nulFree first]
      refine (ih rest (state.store (.scope scope))).trans ?_
      rw [List.map_cons, State.hwlocScopes, State.hwlocScopes, List.foldl_cons, same]

theorem State.scopes_store_prefix (state : State) (object : Object) :
    state.scopes.entries <+: (state.store object).scopes.entries := by
  cases object with
  | scope object => exact Hash.entries_add_prefix _ _ _
  | slice object => exact List.prefix_rfl
  | sensor object => exact List.prefix_rfl
  | actuator object => exact List.prefix_rfl

theorem Server.Actuations.scopes {first last : State} {sent : List Emit}
    (carried : Actuations first sent last) : last.scopes = first.scopes := by
  induction carried with
  | done state => rfl
  | actuate uuid value owner found owned rest ih => exact ih

namespace Nrmd

variable {libm : Libm ℚ} {accept : Daemon → Actuator → ℚ → Int}

/-- A daemon that has been serving since it started on this machine. -/
def Serving (libm : Libm ℚ) (accept : Daemon → Actuator → ℚ → Int) (topology : Topology)
    (server : Server Daemon) : Prop :=
  ∃ start ops, start.state = { State.create with scopes := scopeHwlocScopes .empty topology } ∧
    Data.run (next libm accept) start ops = .ok server

theorem Serving.reachable {topology : Topology} {server : Server Daemon}
    (serving : Serving libm accept topology server) : Reachable libm accept server := by
  obtain ⟨start, ops, started, ran⟩ := serving
  refine ⟨topology.scopes.map Scope.discovered, start, ops, ?_, ran⟩
  rw [started]
  exact hwlocScopes_discovered topology.scopes_nulFree State.create

theorem run_scopes {start final : Server Daemon} {ops : List Op}
    (ran : Data.run (next libm accept) start ops = .ok final) :
    start.state.scopes.entries <+: final.state.scopes.entries := by
  refine Data.run_history
    (motive := fun _ server => start.state.scopes.entries <+: server.state.scopes.entries) ran
    List.prefix_rfl ?_
  intro before middle op after _ held stepped
  obtain ⟨outcome, served, rfl⟩ := next_eq_ok stepped
  cases serve_effect served with
  | add inbound add object turn received wellFormed decoded stored silent =>
      rw [stored]
      exact held.trans (State.scopes_store_prefix _ _)
  | actuations carried =>
      rw [carried.scopes]
      exact held

/-- The answer to `nrm_client_list_scopes` is this list. -/
def ListsScopes (libm : Libm ℚ) (accept : Daemon → Actuator → ℚ → Int) (server : Server Daemon)
    (registered : List Scope) : Prop :=
  ∀ clientid frame env, ∃ sent reply,
    (Call.list .scope).request = .ok (some sent) ∧
    server.roleCallback (guarded libm accept) ⟨clientid, some sent, frame, env⟩ =
      .ok ⟨0, server, [.send clientid reply]⟩ ∧
    (Call.list .scope).finish reply =
      .ok (.listed (registered.map fun scope => some (.scope scope)))

theorem Serving.lists {topology : Topology} {server : Server Daemon}
    (serving : Serving libm accept topology server) :
    ListsScopes libm accept server server.state.scopes.values := by
  intro clientid frame env
  obtain ⟨sent, reply, requested, answered, read⟩ :=
    roleCallback_lists libm accept serving.reachable.sound .scope clientid frame env
  refine ⟨sent, reply, ?_, answered, ?_⟩
  · simp only [Call.request, requested, Exec.ok_bind, Exec.pure_eq_ok]
  · simp only [Call.finish, read, List.filter_true, State.objects, List.map_map]
    rfl

theorem Serving.first {topology : Topology} {server : Server Daemon}
    (serving : Serving libm accept topology server) {scopes : List Scope}
    (started : (scopes.map fun scope => (scope.uuid, scope)) <+: (scopeHwlocScopes .empty topology).entries) :
    scopes <+: server.state.scopes.values := by
  obtain ⟨start, ops, same, ran⟩ := serving
  have kept := run_scopes ran
  rw [same] at kept
  have values := (started.trans kept).map Prod.snd
  rwa [List.map_map, show (Prod.snd ∘ fun scope : Scope => (scope.uuid, scope)) = id from rfl,
    List.map_id] at values

end Nrmd

/-- Machine -/
def machineText : NrmString := [77, 97, 99, 104, 105, 110, 101]

/-- The root of a topology, as hwloc promises it. -/
structure Topology.Root (topology : Topology) (root : HwlocObject) : Prop where
  alone : topology.levels.head? = some [root]
  machine : root.typeText = machineText
  first : root.logicalIndex = 0

section Root

variable {topology : Topology} {root : HwlocObject}

theorem Topology.Root.uuid (is_root : topology.Root root) : root.scope.uuid = globalScope := by
  have name : stringFromchar (scopeName [machineText.take 127, decimal (UInt32.toNat 0)]) = globalScope := by
    decide
  rw [root.scope_eq, HwlocObject.buffer, is_root.machine, is_root.first]
  exact name

theorem Topology.Root.scopes (is_root : topology.Root root) : ∃ rest, topology.scopes = root.scope :: rest := by
  have kept : root.skipped = false := by
    rw [HwlocObject.skipped, HwlocObject.buffer, is_root.machine]
    decide
  obtain ⟨deeper, levels⟩ := List.head?_eq_some_iff.mp is_root.alone
  have objects : topology.objects = root :: deeper.flatten := by
    rw [Topology.objects, levels]
    rfl
  rw [Topology.scopes, objects, List.flatMap_cons, HwlocObject.scopes, kept]
  exact ⟨_, rfl⟩

theorem Topology.Root.entries (is_root : topology.Root root) :
    [(root.scope.uuid, root.scope)] <+: (scopeHwlocScopes .empty topology).entries := by
  obtain ⟨rest, scopes⟩ := is_root.scopes
  rw [scopeHwlocScopes, scopes]
  exact addScopes_prefix (Hash.add .empty root.scope.uuid root.scope).2 rest

theorem Topology.Root.init (is_root : topology.Root root) :
    nrmdInitState topology =
      .ok ({ State.create with scopes := scopeHwlocScopes .empty topology }, root.scope) := by
  obtain ⟨rest, entries⟩ := is_root.entries
  have found : (scopeHwlocScopes .empty topology).lookup globalScope = some root.scope := by
    rw [Data.Table.lookup, ← entries, is_root.uuid, List.singleton_append, List.find?_cons_of_pos (by simp)]
    rfl
  rw [nrmdInitState]
  simp only [Hash.find_snd, found]
  rfl

theorem Topology.Root.allowed (allowed : Nat → List UInt32 × List UInt32)
    (whole : allowed 0 = (root.cpuset, root.nodeset)) (name : NrmString) :
    ScopeHeap.SameSets root.scope (scopeCreateHwlocAllowed allowed name) := by
  have noFlags : allowedFlags = 0 := by decide
  rw [root.scope_eq, scopeCreateHwlocAllowed, noFlags, whole]
  simp only [scopeAddEach_eq, scopeCreate]
  exact ⟨rfl, rfl, rfl⟩

end Root

/-- A search that ends with this scope, whatever there was before. -/
def FindsScope (find : ScopeHeap → List Scope → Option Nat → Exec (ScopeHeap × Int × Option Nat))
    (registered : List Scope) (found : Scope) : Prop :=
  ∀ heap scope, ∃ after s, find heap registered scope = .ok (after, 0, some s) ∧
    after.scopes s = some found

theorem findsScope_of_first {candidate found : Scope} {registered : List Scope} {i : Nat}
    (first : ScopeHeap.FirstAlike candidate registered i) (there : registered[i]? = some found) :
    FindsScope (ScopeHeap.findExisting candidate) registered found := by
  intro heap scope
  obtain ⟨after, s, _, ran, content, _⟩ :=
    (ScopeHeap.findExisting_findsFirst candidate heap registered scope).2.1 i first
  exact ⟨after, s, ran, content.trans there⟩

namespace Nrmd

variable {libm : Libm ℚ} {accept : Daemon → Actuator → ℚ → Int}

/-- `find_allowed_scope` says to know for a fact that the daemon has its scope: in
every state of every run that starts on the same machine it finds the one `nrmd`
asserts at its start, whatever other scopes have been added since. -/
theorem allowed_scope_is_machine {topology : Topology} {root : HwlocObject} (is_root : topology.Root root)
    (allowed : Nat → List UInt32 × List UInt32) (whole : allowed 0 = (root.cpuset, root.nodeset))
    {server : Server Daemon} (serving : Serving libm accept topology server) :
    ListsScopes libm accept server server.state.scopes.values ∧
    ∃ machine, machine.uuid = globalScope ∧
      nrmdInitState topology =
        .ok ({ State.create with scopes := scopeHwlocScopes .empty topology }, machine) ∧
      ∀ pid,
        FindsScope (ScopeHeap.omptFindAllowedScope (scopeCreateHwlocAllowed allowed) pid)
          server.state.scopes.values machine ∧
        FindsScope (ScopeHeap.papiwrapperFindAllowedScope (scopeCreateHwlocAllowed allowed) pid)
          server.state.scopes.values machine := by
  refine ⟨serving.lists, root.scope, is_root.uuid, is_root.init, ?_⟩
  have first : [root.scope] <+: server.state.scopes.values := serving.first is_root.entries
  obtain ⟨rest, values⟩ := first
  have there : server.state.scopes.values[0]? = some root.scope := by
    rw [← values]
    rfl
  have first (name : NrmString) : ScopeHeap.FirstAlike (scopeCreateHwlocAllowed allowed name)
      server.state.scopes.values 0 :=
    ⟨⟨root.scope, there, Topology.Root.allowed allowed whole name⟩, fun j earlier => absurd earlier j.not_lt_zero⟩
  intro pid
  exact ⟨findsScope_of_first (first _) there, findsScope_of_first (first _) there⟩

def twoNodes : Topology where
  levels := [[⟨.other, machineText, 0, [0, 1], [0, 1]⟩],
    [⟨.pu, [80, 85], 0, [0], [0, 1]⟩, ⟨.pu, [80, 85], 1, [1], [0, 1]⟩]]
  osDevices := [⟨.coproc, 0, [99, 117, 100, 97, 48]⟩]

def latecomer : List Op := [.message (inboundAdd [65] ⟨2, some (.scope ⟨[103], [0, 1], [0, 1], []⟩)⟩)]

def onTwoNodes : Server Daemon :=
  { fresh with state := { State.create with scopes := scopeHwlocScopes .empty twoNodes } }

theorem latecomer_served : ∃ server,
    Serving ⟨fun _ => 1, fun _ => 0⟩ actuateCallback twoNodes server ∧
      server.state.scopes.values.length = 9 := by
  refine ⟨_, ⟨onTwoNodes, latecomer, rfl, rfl⟩, ?_⟩
  decide +kernel

theorem allowed_scope_is_machine_sample : ∃ (server : Server Daemon) (machine : Scope),
    server.state.scopes.values.length = 9 ∧ machine.uuid = globalScope ∧
      FindsScope (ScopeHeap.omptFindAllowedScope (scopeCreateHwlocAllowed fun _ => ([0, 1], [0, 1])) 42)
        server.state.scopes.values machine := by
  obtain ⟨server, serving, length⟩ := latecomer_served
  have is_root : twoNodes.Root ⟨.other, machineText, 0, [0, 1], [0, 1]⟩ := ⟨rfl, rfl, rfl⟩
  obtain ⟨_, machine, name, _, finds⟩ :=
    allowed_scope_is_machine is_root (fun _ => ([0, 1], [0, 1])) rfl serving
  exact ⟨server, machine, length, name, (finds 42).1⟩

end Nrmd

theorem Topology.Documented.entries {topology : Topology} (documented : topology.Documented) :
    ((topology.objects.flatMap HwlocObject.scopes).map fun scope => (scope.uuid, scope)) <+:
      (scopeHwlocScopes .empty topology).entries := by
  have apart : ((.empty : Hash Scope).keys ++
      (topology.objects.flatMap HwlocObject.scopes).map Scope.uuid).Nodup := documented.uuids_nodup
  have added := addScopes_of_nodup apart
  have split : scopeHwlocScopes .empty topology =
      addScopes (addScopes .empty (topology.objects.flatMap HwlocObject.scopes))
        (gpuScopes (hasSubdevices topology.osDevices) 0 topology.osDevices) := by
    rw [scopeHwlocScopes, Topology.scopes, addScopes, List.foldl_append]
    rfl
  have kept := addScopes_prefix (addScopes .empty (topology.objects.flatMap HwlocObject.scopes))
    (gpuScopes (hasSubdevices topology.osDevices) 0 topology.osDevices)
  rw [added] at kept
  rw [split]
  exact kept

theorem Topology.Documented.node_scope {topology : Topology} (documented : topology.Documented)
    {object : HwlocObject} (member : object ∈ topology.objects) (pu : object.type = .pu) {node : UInt32}
    (near : node ∈ object.nodeset) :
    ∃ scope ∈ object.scopes, scope.cpu = Bitmap.reset.setEach object.cpuset ∧
      scope.numa = Bitmap.reset.setEach [node] ∧ scope.gpu = .reset := by
  have kept : object.skipped = false := by
    rw [HwlocObject.skipped, documented.buffer member, (documented.pu object member pu).1]
    decide
  by_cases several : 1 < object.nodeset.length
  · refine ⟨object.nodeScope node, ?_, ?_⟩
    · rw [HwlocObject.scopes, kept, if_neg Bool.false_ne_true, if_pos ⟨pu, several⟩]
      exact List.mem_cons_of_mem _ (List.mem_map_of_mem near)
    · rw [object.nodeScope_eq]
      exact ⟨rfl, rfl, rfl⟩
  · have single : object.nodeset = [node] := by
      have positive := List.length_pos_of_mem near
      obtain ⟨only, one⟩ := List.length_eq_one_iff.mp (by omega : object.nodeset.length = 1)
      rw [one] at near ⊢
      rw [List.mem_singleton.mp near]
    refine ⟨object.scope, ?_, ?_⟩
    · rw [HwlocObject.scopes, kept]
      exact List.mem_cons_self
    · rw [object.scope_eq, single]
      exact ⟨rfl, rfl, rfl⟩

theorem exists_firstAlike {candidate : Scope} {registered : List Scope}
    (alike : ∃ scope ∈ registered, ScopeHeap.SameSets scope candidate) :
    ∃ i, ScopeHeap.FirstAlike candidate registered i := by
  obtain ⟨scope, listed, same⟩ := alike
  obtain ⟨j, there⟩ := List.mem_iff_getElem?.mp listed
  have some : ∃ i s, registered[i]? = some s ∧ ScopeHeap.SameSets s candidate := ⟨j, scope, there, same⟩
  classical
  refine ⟨Nat.find some, Nat.find_spec some, ?_⟩
  intro i earlier s at_i alike
  exact Nat.find_min some earlier ⟨s, at_i, alike⟩

namespace Nrmd

variable {libm : Libm ℚ} {accept : Daemon → Actuator → ℚ → Int}

theorem isset_set_reset (position i : Nat) :
    (Bitmap.reset.set position).2.isset i = 1 ↔ i = position ∧ i < bitmapMax := by
  rw [Bitmap.isset_eq_one_iff]
  constructor
  · intro isSet
    have inside := Bitmap.bit_inside isSet
    rw [Bitmap.bit_set _ _ inside, Bitmap.bit_reset] at isSet
    exact ⟨by simpa using isSet, inside⟩
  · rintro ⟨rfl, inside⟩
    rw [Bitmap.bit_set _ _ inside]
    simp

/-- No name of an object's scope is refused when the daemon starts, and so a process of an
MPI program finds a scope with the processor and the node it runs on, in every state of every
run, however many nodes its processor is close to.  Numbers past the bitmaps are in no scope. -/
theorem thread_scope_found {topology : Topology} (documented : topology.Documented) {object : HwlocObject}
    (member : object ∈ topology.objects) (pu : object.type = .pu) {cpu node : UInt32}
    (own : cpu ∈ object.cpuset) (near : node ∈ object.nodeset) {server : Server Daemon}
    (serving : Serving libm accept topology server) :
    ((topology.objects.flatMap HwlocObject.scopes).map Scope.uuid).Nodup ∧
      topology.objects.flatMap HwlocObject.scopes <+: server.state.scopes.values ∧
      ListsScopes libm accept server server.state.scopes.values ∧ ∀ rank, ∃ found,
        FindsScope (ScopeHeap.pmpiFindScope (scopeThreadshared cpu node) rank) server.state.scopes.values found ∧
        (∀ i, found.cpu.isset i = 1 ↔ i = cpu.toNat ∧ i < bitmapMax) ∧
        (∀ i, found.numa.isset i = 1 ↔ i = node.toNat ∧ i < bitmapMax) ∧
        ∀ i, found.gpu.isset i ≠ 1 := by
  have started := serving.first documented.entries
  refine ⟨documented.uuids_nodup, started, serving.lists, ?_⟩
  intro rank
  obtain ⟨only, cpuset⟩ := (documented.pu object member pu).2
  obtain rfl : cpu = only := by
    rw [cpuset] at own
    exact List.mem_singleton.mp own
  obtain ⟨scope, listed, cpus, nodes, gpus⟩ := documented.node_scope member pu near
  rw [cpuset] at cpus
  have registered : scope ∈ server.state.scopes.values :=
    started.subset (List.mem_flatMap.mpr ⟨object, member, listed⟩)
  have alike : ScopeHeap.SameSets scope
      (scopeThreadshared cpu node (scopeCreate (ScopeHeap.pmpiName rank))) := ⟨cpus, nodes, gpus⟩
  obtain ⟨i, first⟩ := exists_firstAlike ⟨scope, registered, alike⟩
  obtain ⟨found, there, sameCpus, sameNodes, sameGpus⟩ := first.1
  refine ⟨found, findsScope_of_first first there, ?_, ?_, ?_⟩
  · intro bit
    rw [sameCpus]
    exact isset_set_reset cpu.toNat bit
  · intro bit
    rw [sameNodes]
    exact isset_set_reset node.toNat bit
  · intro bit isSet
    have none : found.gpu = .reset := sameGpus
    rw [none, Bitmap.isset_eq_one_iff, Bitmap.bit_reset] at isSet
    cases isSet

theorem twoNodes_documented : twoNodes.Documented where
  dotless := by decide
  nulFree := by decide
  short := by decide
  numbered := by decide
  sets := by decide
  pu := by simp [twoNodes, Topology.objects]

theorem thread_scope_found_sample : ∃ (server : Server Daemon) (found : Scope),
    server.state.scopes.values.length = 9 ∧
      FindsScope (ScopeHeap.pmpiFindScope (scopeThreadshared 1 0) 3) server.state.scopes.values found ∧
      found.cpu.isset 1 = 1 ∧ found.cpu.isset 0 ≠ 1 ∧ found.numa.isset 0 = 1 ∧ found.numa.isset 1 ≠ 1 := by
  obtain ⟨server, serving, length⟩ := latecomer_served
  have member : ⟨.pu, [80, 85], 1, [1], [0, 1]⟩ ∈ twoNodes.objects := by decide
  have own : (1 : UInt32) ∈ [(1 : UInt32)] := by decide
  have near : (0 : UInt32) ∈ [(0 : UInt32), 1] := by decide
  obtain ⟨_, _, _, finds⟩ := thread_scope_found twoNodes_documented member rfl own near serving
  obtain ⟨found, search, cpus, nodes, _⟩ := finds 3
  refine ⟨server, found, length, search, (cpus 1).mpr ⟨rfl, by decide⟩, ?_, (nodes 0).mpr ⟨rfl, by decide⟩, ?_⟩
  · exact fun isSet => absurd ((cpus 0).mp isSet).1 (by decide)
  · exact fun isSet => absurd ((nodes 1).mp isSet).1 (by decide)

end Nrmd

end LibNrm
