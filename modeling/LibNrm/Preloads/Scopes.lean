import LibNrm.Scope.Json
import LibNrm.Utils.Rendering

namespace LibNrm

/-! The preloads and the tools make a scope out of what the operating system says
about them and replace it by the scope of the daemon with the same resources.
The loop that looks for it takes the listed scopes from the back of the vector,
and exists four times.
-/

/-- The scopes of a process by address, and what `nrm_scope_destroy` was called on. -/
structure ScopeHeap where
  scopes : Nat → Option Scope
  next : Nat
  destroyed : List Nat

namespace ScopeHeap

def create (heap : ScopeHeap) (scope : Scope) : ScopeHeap × Nat :=
  ({ heap with scopes := Function.update heap.scopes heap.next (some scope), next := heap.next + 1 },
    heap.next)

def read (heap : ScopeHeap) (s : Nat) : Exec Scope :=
  match heap.scopes s with
  | some scope => .ok scope
  | none => .error .danglingPointer

/-- `nrm_scope_destroy` -/
def scopeDestroy (heap : ScopeHeap) (s : Nat) : Exec ScopeHeap :=
  match heap.scopes s with
  | some _ => .ok
      { heap with
        scopes := Function.update heap.scopes s none
        destroyed := heap.destroyed ++ [s] }
  | none => .error .danglingPointer

/-- `nrm_client_list_scopes`, from the reply on: the decoded scopes in a vector. -/
def clientListScopes : ScopeHeap → List Scope → ScopeHeap × List Nat
  | heap, [] => (heap, [])
  | heap, scope :: registered =>
      let (heap, s) := heap.create scope
      let (heap, vector) := heap.clientListScopes registered
      (heap, s :: vector)

/-- The loop of all four: the scope it ends with, and `newscope`. -/
def matchScopes : Nat → ScopeHeap → List Nat → Nat → Bool → Exec (ScopeHeap × Nat × Bool)
  | 0, heap, _, scope, newscope => .ok (heap, scope, newscope)
  | numscopes + 1, heap, nrmdScopes, scope, newscope =>
      match nrmdScopes.getLast? with
      -- `s` would be used without a value
      | none => .error .danglingPointer
      | some s => do
          let one ← heap.read s
          let two ← heap.read scope
          if scopeCmp one two = 0 then
            let heap ← heap.scopeDestroy scope
            matchScopes numscopes heap nrmdScopes.dropLast s true
          else
            let heap ← heap.scopeDestroy s
            matchScopes numscopes heap nrmdScopes.dropLast scope newscope

/-- `find_allowed_scope` and `find_scope` with the scope they create: the return code and what
is in `*scope` afterwards. -/
def findExisting (candidate : Scope) (heap : ScopeHeap) (registered : List Scope)
    (scope : Option Nat) : Exec (ScopeHeap × Int × Option Nat) := do
  let (heap, allowed) := heap.create candidate
  let (heap, nrmdScopes) := heap.clientListScopes registered
  let (heap, allowed, newscope) ← heap.matchScopes nrmdScopes.length nrmdScopes allowed false
  if !newscope then pure (heap, -nrmEinval, scope)
  else pure (heap, 0, some allowed)

def omptName (pid : Nat) : NrmString :=
  -- nrm.ompt.global.
  [110, 114, 109, 46, 111, 109, 112, 116, 46, 103, 108, 111, 98, 97, 108, 46] ++ decimal pid

def papiwrapperName (pid : Nat) : NrmString :=
  -- nrm.extra.papi.
  [110, 114, 109, 46, 101, 120, 116, 114, 97, 46, 112, 97, 112, 105, 46] ++ decimal pid

-- the rank is an `int` printed with `%u`
def pmpiName (rank : Int) : NrmString :=
  -- nrm.pmpi.
  [110, 114, 109, 46, 112, 109, 112, 105, 46] ++ decimal (unsignedInt rank)

/-- `find_allowed_scope` of the OpenMP preload.  What hwloc allows is a parameter. -/
def omptFindAllowedScope (createHwlocAllowed : NrmString → Scope) (pid : Nat) :
    ScopeHeap → List Scope → Option Nat → Exec (ScopeHeap × Int × Option Nat) :=
  findExisting (createHwlocAllowed (omptName pid))

/-- `find_allowed_scope` of `nrm-papiwrapper`. -/
def papiwrapperFindAllowedScope (createHwlocAllowed : NrmString → Scope) (pid : Nat) :
    ScopeHeap → List Scope → Option Nat → Exec (ScopeHeap × Int × Option Nat) :=
  findExisting (createHwlocAllowed (papiwrapperName pid))

/-- `find_scope` of the MPI preload.  Where the thread runs is a parameter. -/
def pmpiFindScope (threadshared : Scope → Scope) (rank : Int) :
    ScopeHeap → List Scope → Option Nat → Exec (ScopeHeap × Int × Option Nat) :=
  findExisting (threadshared (scopeCreate (pmpiName rank)))

/-- `nrm_geopm_find_scope`: the return code, `*scope` and `*added`. -/
def geopmFindScope (heap : ScopeHeap) (scope : Nat) (registered : List Scope) :
    Exec (ScopeHeap × Int × Nat × Int) := do
  let (heap, nrmdScopes) := heap.clientListScopes registered
  let (heap, scope, newscope) ← heap.matchScopes nrmdScopes.length nrmdScopes scope false
  pure (heap, 0, scope, if !newscope then 1 else 0)

def SameSets (one two : Scope) : Prop :=
  one.cpu = two.cpu ∧ one.numa = two.numa ∧ one.gpu = two.gpu

instance (one two : Scope) : Decidable (SameSets one two) :=
  inferInstanceAs (Decidable (_ ∧ _))

theorem SameSets.iff_of_same {one two three : Scope} (same : SameSets two three) :
    SameSets one two ↔ SameSets one three := by
  obtain ⟨cpu, numa, gpu⟩ := same
  rw [SameSets, SameSets, cpu, numa, gpu]

/-- The scopes the loop is about to look at, and the one it compares them with, are all there
and all different. -/
structure Present (heap : ScopeHeap) (content : Nat → Scope) (addresses : List Nat) : Prop where
  live : ∀ s ∈ addresses, heap.scopes s = some (content s)
  distinct : addresses.Nodup

variable {heap : ScopeHeap} {content : Nat → Scope}

theorem Present.perm {addresses others : List Nat} (present : Present heap content addresses)
    (same : addresses.Perm others) : Present heap content others :=
  ⟨fun s member => present.live s (same.mem_iff.mpr member), same.nodup present.distinct⟩

theorem Present.read {addresses : List Nat} (present : Present heap content addresses) {s : Nat}
    (member : s ∈ addresses) : heap.read s = .ok (content s) := by
  rw [ScopeHeap.read, present.live s member]

theorem Present.destroy {s : Nat} {others : List Nat} (present : Present heap content (s :: others)) :
    ∃ after, heap.scopeDestroy s = .ok after ∧ after.destroyed = heap.destroyed ++ [s] ∧
      Present after content others := by
  obtain ⟨apart, distinct⟩ := List.nodup_cons.mp present.distinct
  have there := present.live s List.mem_cons_self
  refine ⟨⟨Function.update heap.scopes s none, heap.next, heap.destroyed ++ [s]⟩, ?_, rfl, ?_, distinct⟩
  · rw [scopeDestroy, there]
  · intro other member
    have different : other ≠ s := fun same => apart (same ▸ member)
    exact (Function.update_of_ne different _ _).trans
      (present.live other (List.mem_cons_of_mem s member))

/-- The first of the addresses whose scope has the resources of a scope. -/
def firstMatching (content : Nat → Scope) (key : Scope) (addresses : List Nat) : Option Nat :=
  addresses.find? fun s => SameSets (content s) key

theorem firstMatching_snoc (key : Scope) (front : List Nat) (s : Nat) :
    firstMatching content key (front ++ [s]) =
      (firstMatching content key front).or (if SameSets (content s) key then some s else none) := by
  rw [firstMatching, List.find?_append, firstMatching, List.find?_singleton]
  simp

theorem firstMatching_congr {one two : Scope} (same : SameSets one two) (addresses : List Nat) :
    firstMatching content one addresses = firstMatching content two addresses := by
  have agree : ∀ s, SameSets (content s) one ↔ SameSets (content s) two := fun s => same.iff_of_same
  simp only [firstMatching, agree]

/-- A turn of the loop at a match: the scope compared with is destroyed and replaced. -/
theorem matchScopes_of_same {front : List Nat} {s scope : Nat} (newscope : Bool)
    (present : Present heap content (scope :: (front ++ [s])))
    (same : SameSets (content s) (content scope)) :
    ∃ between, heap.matchScopes (front ++ [s]).length (front ++ [s]) scope newscope =
        between.matchScopes front.length front s true ∧
      between.destroyed = heap.destroyed ++ [scope] ∧ Present between content (s :: front) := by
  have last : (scope :: (front ++ [s])).Perm (s :: scope :: front) :=
    List.perm_append_singleton s (scope :: front)
  have here : heap.read s = _ := present.read (last.mem_iff.mpr List.mem_cons_self)
  have candidate : heap.read scope = _ := present.read List.mem_cons_self
  have equal := (scopeCmp_eq_zero_iff (content s) (content scope)).mpr same
  obtain ⟨between, gone, log, rest⟩ := (present.perm (last.trans (.swap scope s front))).destroy
  refine ⟨between, ?_, log, rest⟩
  simp [matchScopes, here, candidate, equal, gone]

/-- A turn of the loop at another scope: that scope is destroyed. -/
theorem matchScopes_of_other {front : List Nat} {s scope : Nat} (newscope : Bool)
    (present : Present heap content (scope :: (front ++ [s])))
    (other : ¬ SameSets (content s) (content scope)) :
    ∃ between, heap.matchScopes (front ++ [s]).length (front ++ [s]) scope newscope =
        between.matchScopes front.length front scope newscope ∧
      between.destroyed = heap.destroyed ++ [s] ∧ Present between content (scope :: front) := by
  have last : (scope :: (front ++ [s])).Perm (s :: scope :: front) :=
    List.perm_append_singleton s (scope :: front)
  have here : heap.read s = _ := present.read (last.mem_iff.mpr List.mem_cons_self)
  have candidate : heap.read scope = _ := present.read List.mem_cons_self
  have differs : scopeCmp (content s) (content scope) ≠ 0 := fun equal =>
    other ((scopeCmp_eq_zero_iff (content s) (content scope)).mp equal)
  obtain ⟨between, gone, log, rest⟩ := (present.perm last).destroy
  refine ⟨between, ?_, log, rest⟩
  simp [matchScopes, here, candidate, differs, gone]

/-- Whatever it compares with in between, the loop ends with the first match, or with
the candidate if there is none, and destroys all others once. -/
theorem matchScopes_spec (front : List Nat) (heap : ScopeHeap) (scope : Nat) (newscope : Bool)
    (present : Present heap content (scope :: front)) :
    let first := firstMatching content (content scope) front
    ∃ after destroyed,
      heap.matchScopes front.length front scope newscope =
        .ok (after, first.getD scope, newscope || first.isSome) ∧
      after.destroyed = heap.destroyed ++ destroyed ∧
      (first.getD scope :: destroyed).Perm (scope :: front) ∧
      Present after content [first.getD scope] := by
  -- from the back, with the scope compared with and the heap general
  induction front using List.reverseRecOn generalizing heap scope newscope with
  | nil => exact ⟨heap, [], by simp [matchScopes, firstMatching], by simp, .refl _, present⟩
  | append_singleton front s ih =>
      by_cases same : SameSets (content s) (content scope)
      · obtain ⟨between, turn, log, rest⟩ := matchScopes_of_same newscope present same
        obtain ⟨after, destroyed, ran, later, all, kept⟩ := ih between s true rest
        have chosen : (firstMatching content (content scope) (front ++ [s])).getD scope =
            (firstMatching content (content s) front).getD s := by
          rw [firstMatching_snoc, if_pos same, ← firstMatching_congr same]
          cases firstMatching content (content s) front <;> rfl
        have found : (firstMatching content (content scope) (front ++ [s])).isSome = true := by
          rw [firstMatching_snoc, if_pos same]
          simp
        refine ⟨after, scope :: destroyed, ?_, ?_, ?_, ?_⟩
        · rw [chosen, found, Bool.or_true, turn]
          exact ran
        · rw [later, log, List.append_assoc, List.singleton_append]
        · rw [chosen]
          exact (List.Perm.swap scope _ destroyed).trans
            ((all.cons scope).trans ((List.perm_append_singleton s front).symm.cons scope))
        · rw [chosen]
          exact kept
      · obtain ⟨between, turn, log, rest⟩ := matchScopes_of_other newscope present same
        obtain ⟨after, destroyed, ran, later, all, kept⟩ := ih between scope newscope rest
        have unchanged : firstMatching content (content scope) (front ++ [s]) =
            firstMatching content (content scope) front := by
          rw [firstMatching_snoc, if_neg same, Option.or_none]
        refine ⟨after, s :: destroyed, ?_, ?_, ?_, ?_⟩
        · rw [unchanged, turn]
          exact ran
        · rw [later, log, List.append_assoc, List.singleton_append]
        · rw [unchanged]
          exact (List.Perm.swap s _ destroyed).trans
            ((all.cons s).trans (List.perm_append_singleton s (scope :: front)).symm)
        · rw [unchanged]
          exact kept

/-- The index of the first scope of the daemon's list with the candidate's resources. -/
def FirstAlike (candidate : Scope) (registered : List Scope) (i : Nat) : Prop :=
  (∃ s, registered[i]? = some s ∧ SameSets s candidate) ∧
    ∀ j < i, ∀ s, registered[j]? = some s → ¬ SameSets s candidate

/-- Exactly these scopes have been destroyed since, each of them once. -/
def DestroyedOnce (heap after : ScopeHeap) (addresses : List Nat) : Prop :=
  addresses.Nodup ∧ ∃ destroyed, after.destroyed = heap.destroyed ++ destroyed ∧
    destroyed.Perm addresses

theorem create_scopes_self (heap : ScopeHeap) (scope : Scope) :
    (heap.create scope).1.scopes heap.next = some scope := by
  simp [create]

theorem create_scopes_of_lt (heap : ScopeHeap) (scope : Scope) {s : Nat} (old : s < heap.next) :
    (heap.create scope).1.scopes s = heap.scopes s := by
  simp [create, Nat.ne_of_lt old]

theorem clientListScopes_spec (registered : List Scope) (heap : ScopeHeap) :
    let listing := heap.clientListScopes registered
    listing.2 = List.range' heap.next registered.length ∧
      listing.1.destroyed = heap.destroyed ∧
      (∀ s < heap.next, listing.1.scopes s = heap.scopes s) ∧
      listing.2.map listing.1.scopes = registered.map some := by
  induction registered generalizing heap with
  | nil => exact ⟨rfl, rfl, fun _ _ => rfl, rfl⟩
  | cons scope registered ih =>
      obtain ⟨addresses, destroyed, before, contents⟩ := ih (heap.create scope).1
      refine ⟨?_, destroyed, ?_, ?_⟩
      · simp only [clientListScopes, addresses, List.length_cons, List.range'_succ]
        rfl
      · intro s old
        exact (before s (Nat.lt_succ_of_lt old)).trans (heap.create_scopes_of_lt scope old)
      · have first := (before heap.next (Nat.lt_succ_self heap.next)).trans
          (heap.create_scopes_self scope)
        simp only [clientListScopes, List.map_cons, contents]
        exact congrArg (· :: registered.map some) first

structure Listed (heap : ScopeHeap) (candidate : Scope) (registered : List Scope)
    (listing : ScopeHeap) (vector : List Nat) (content : Nat → Scope) : Prop where
  candidate_content : content heap.next = candidate
  contents : vector.map content = registered
  present : Present listing content (heap.next :: vector)
  log : listing.destroyed = heap.destroyed

theorem listed_content (heap : ScopeHeap) (candidate : Scope) (registered : List Scope) :
    let listing := (heap.create candidate).1.clientListScopes registered
    Listed heap candidate registered listing.1 listing.2
      (fun s => (listing.1.scopes s).getD candidate) := by
  intro listing
  obtain ⟨addresses, destroyed, before, contents⟩ :=
    clientListScopes_spec registered (heap.create candidate).1
  have own : listing.1.scopes heap.next = some candidate :=
    (before heap.next (Nat.lt_succ_self heap.next)).trans (heap.create_scopes_self candidate)
  constructor
  case candidate_content => rw [own, Option.getD_some]
  case contents =>
    have unwrapped := congrArg (List.map fun scope => Option.getD scope candidate) contents
    rw [List.map_map, List.map_map] at unwrapped
    exact unwrapped.trans (List.map_id registered)
  case present =>
    constructor
    · intro s member
      rcases List.mem_cons.mp member with rfl | inside
      · rw [own, Option.getD_some]
      · have there : listing.1.scopes s ∈ registered.map some :=
          contents ▸ List.mem_map_of_mem inside
        obtain ⟨scope, -, read⟩ := List.mem_map.mp there
        rw [← read, Option.getD_some]
    · refine List.nodup_cons.mpr ⟨?_, addresses ▸ List.nodup_range'⟩
      rw [addresses, List.mem_range'_1]
      intro inside
      exact Nat.not_succ_le_self heap.next inside.1
  case log => exact destroyed

section Listing

variable {candidate : Scope} {registered : List Scope} {listing : ScopeHeap} {vector : List Nat}

theorem Listed.match_first (listed : Listed heap candidate registered listing vector content)
    {i : Nat} (first : FirstAlike candidate registered i) :
    ∃ after s, vector[i]? = some s ∧
      listing.matchScopes vector.length vector heap.next false = .ok (after, s, true) ∧
      after.scopes s = registered[i]? ∧ DestroyedOnce heap after (heap.next :: vector.erase s) := by
  obtain ⟨⟨scope, read, same⟩, before⟩ := first
  rw [← listed.contents, List.getElem?_map, Option.map_eq_some_iff] at read
  obtain ⟨s, at_i, rfl⟩ := read
  have found : firstMatching content (content heap.next) vector = some s := by
    rw [listed.candidate_content, firstMatching, List.find?_eq_some_iff_getElem]
    obtain ⟨inside, rfl⟩ := List.getElem?_eq_some_iff.mp at_i
    refine ⟨by simpa using same, i, inside, rfl, ?_⟩
    intro j earlier
    have differs := before j earlier (content vector[j])
      (by rw [← listed.contents, List.getElem?_map, List.getElem?_eq_getElem, Option.map_some])
    simpa using differs
  obtain ⟨after, destroyed, ran, log, all, kept⟩ :=
    matchScopes_spec vector listing heap.next false listed.present
  rw [found] at ran all kept
  have member : s ∈ vector := List.mem_of_getElem? at_i
  have rest : destroyed.Perm (heap.next :: vector.erase s) := by
    have moved : (heap.next :: vector).Perm (s :: heap.next :: vector.erase s) :=
      ((List.perm_cons_erase member).cons heap.next).trans (.swap s heap.next _)
    exact (all.trans moved).cons_inv
  refine ⟨after, s, at_i, ran, ?_, ?_, destroyed, ?_, rest⟩
  · rw [← listed.contents, List.getElem?_map, at_i]
    exact kept.live s List.mem_cons_self
  · exact (listed.present.distinct.sublist ((List.erase_sublist).cons_cons heap.next))
  · rw [log, listed.log]

theorem Listed.match_none (listed : Listed heap candidate registered listing vector content)
    (none : ∀ s ∈ registered, ¬ SameSets s candidate) :
    ∃ after, listing.matchScopes vector.length vector heap.next false =
        .ok (after, heap.next, false) ∧
      after.scopes heap.next = some candidate ∧ DestroyedOnce heap after vector := by
  have missing : firstMatching content (content heap.next) vector = .none := by
    rw [listed.candidate_content, firstMatching, List.find?_eq_none]
    intro s member
    have differs := none (content s) (listed.contents ▸ List.mem_map_of_mem member)
    simpa using differs
  obtain ⟨after, destroyed, ran, log, all, kept⟩ :=
    matchScopes_spec vector listing heap.next false listed.present
  rw [missing] at ran all kept
  refine ⟨after, ran, ?_, (List.nodup_cons.mp listed.present.distinct).2, destroyed, ?_, all.cons_inv⟩
  · have live := kept.live heap.next List.mem_cons_self
    rwa [listed.candidate_content] at live
  · rw [log, listed.log]

end Listing

/-- What `find_allowed_scope` and `find_scope` are for, given the candidate. -/
def FindsFirst (candidate : Scope)
    (find : ScopeHeap → List Scope → Option Nat → Exec (ScopeHeap × Int × Option Nat)) : Prop :=
  ∀ heap registered scope,
    let allowed := (heap.create candidate).2
    let listed := ((heap.create candidate).1.clientListScopes registered).2
    listed.length = registered.length ∧
    (∀ i, FirstAlike candidate registered i → ∃ after s, listed[i]? = some s ∧
      find heap registered scope = .ok (after, 0, some s) ∧ after.scopes s = registered[i]? ∧
      DestroyedOnce heap after (allowed :: listed.erase s)) ∧
    ((∀ s ∈ registered, ¬ SameSets s candidate) → ∃ after,
      find heap registered scope = .ok (after, -nrmEinval, scope) ∧ DestroyedOnce heap after listed)

/-- The same for `nrm_geopm_find_scope`, which is given the candidate and keeps it if
the daemon has no such scope. -/
def GeopmFindsFirst (candidate : Scope) : Prop :=
  ∀ (heap : ScopeHeap) (registered : List Scope),
    let start := (heap.create candidate).1
    let scope := (heap.create candidate).2
    let listed := (start.clientListScopes registered).2
    (∀ i, FirstAlike candidate registered i → ∃ after s, listed[i]? = some s ∧
      start.geopmFindScope scope registered = .ok (after, 0, s, 0) ∧ after.scopes s = registered[i]? ∧
      DestroyedOnce heap after (scope :: listed.erase s)) ∧
    ((∀ s ∈ registered, ¬ SameSets s candidate) → ∃ after,
      start.geopmFindScope scope registered = .ok (after, 0, scope, 1) ∧
      after.scopes scope = some candidate ∧ DestroyedOnce heap after listed)

theorem findExisting_findsFirst (candidate : Scope) :
    FindsFirst candidate (findExisting candidate) := by
  intro heap registered scope allowed listed
  have start := listed_content heap candidate registered
  have addresses := (clientListScopes_spec registered (heap.create candidate).1).1
  refine ⟨(congrArg List.length addresses).trans List.length_range', ?_, ?_⟩
  · intro i first
    obtain ⟨after, s, at_i, ran, content, destroyed⟩ := start.match_first first
    refine ⟨after, s, at_i, ?_, content, destroyed⟩
    simp only [findExisting]
    rw [show (heap.create candidate).2 = heap.next from rfl, ran]
    rfl
  · intro none
    obtain ⟨after, ran, -, destroyed⟩ := start.match_none none
    refine ⟨after, ?_, destroyed⟩
    simp only [findExisting]
    rw [show (heap.create candidate).2 = heap.next from rfl, ran]
    rfl

theorem geopmFindScope_findsFirst (candidate : Scope) : GeopmFindsFirst candidate := by
  intro heap registered begun scope listed
  have start := listed_content heap candidate registered
  refine ⟨?_, ?_⟩
  · intro i first
    obtain ⟨after, s, at_i, ran, content, destroyed⟩ := start.match_first first
    refine ⟨after, s, at_i, ?_, content, destroyed⟩
    change (matchScopes _ _ _ heap.next false >>= _) = _
    rw [ran]
    rfl
  · intro none
    obtain ⟨after, ran, kept, destroyed⟩ := start.match_none none
    refine ⟨after, ?_, kept, destroyed⟩
    change (matchScopes _ _ _ heap.next false >>= _) = _
    rw [ran]
    rfl

/-- All four copies of the loop end with the first scope of the daemon that has the
resources of the candidate and destroy everything else once; without such a scope
three of them fail and the fourth keeps the candidate. -/
theorem copies_agree (createHwlocAllowed : NrmString → Scope) (threadshared : Scope → Scope)
    (pid : Nat) (rank : Int) :
    FindsFirst (createHwlocAllowed (omptName pid)) (omptFindAllowedScope createHwlocAllowed pid) ∧
    FindsFirst (createHwlocAllowed (papiwrapperName pid))
      (papiwrapperFindAllowedScope createHwlocAllowed pid) ∧
    FindsFirst (threadshared (scopeCreate (pmpiName rank))) (pmpiFindScope threadshared rank) ∧
    ∀ candidate, GeopmFindsFirst candidate :=
  ⟨findExisting_findsFirst _, findExisting_findsFirst _, findExisting_findsFirst _,
    geopmFindScope_findsFirst⟩

end ScopeHeap

end LibNrm
