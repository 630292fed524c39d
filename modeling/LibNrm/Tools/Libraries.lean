import LibNrm.Tools.Nrmc

namespace LibNrm.Nrmc

open Data.Getopt

/-- Paths with one colon between them; a path without a byte is left out. -/
def pathList (paths : List NrmString) : NrmString := [58].intercalate (paths.filter (fun path => path ≠ []))

theorem joined_eq_pathList (heap : StringHeap) (vec : List Nat) :
    heap.joined 58 (vec.map some) = pathList (vec.map heap.bytes) := by
  simp [StringHeap.joined, StringHeap.parts, pathList, List.filterMap_map]

/-- The strings of both vectors are alive, and each is there once. -/
structure Holds (libraries : Libraries) (preloads ompt : List NrmString) : Prop where
  nodup : (libraries.preloads ++ libraries.ompt).Nodup
  live : ∀ s ∈ libraries.preloads ++ libraries.ompt, 0 < libraries.heap.refs.count s
  preloads : libraries.preloads.map libraries.heap.bytes = preloads
  ompt : libraries.ompt.map libraries.heap.bytes = ompt

theorem count_stringNew (heap : StringHeap) (content : NrmString) (s : Nat) :
    (heap.stringNew content).1.refs.count s = if s = heap.next then 1 else heap.refs.count s := by
  simp only [StringHeap.stringNew, Data.RefCounts.count_create]

theorem bytes_stringNew_of_live {heap : StringHeap} (content : NrmString) {s : Nat}
    (live : 0 < heap.refs.count s) : (heap.stringNew content).1.bytes s = heap.bytes s := by
  have old := StringHeap.lt_next_of_live live
  simp only [StringHeap.stringNew, Function.update_of_ne (show s ≠ heap.next by omega)]

theorem stringSetenv_spec (env : Env) (envname : NrmString) {heap : StringHeap} {vec : List Nat}
    (live : ∀ s ∈ vec, 0 < heap.refs.count s) :
    ∃ after, stringSetenv env envname heap vec =
        .ok (after, Function.update env envname (some (pathList (vec.map heap.bytes)))) ∧
      (∀ s < heap.next, after.refs.count s = heap.refs.count s) ∧
      ∀ s < heap.next, after.bytes s = heap.bytes s := by
  have liveSome : ∀ s, some s ∈ vec.map some → 0 < heap.refs.count s := by
    intro s member
    exact live s (by simpa using member)
  obtain ⟨joined, val, ran, holding, bytes⟩ := @StringHeap.vjoin_holds heap 58 _ liveSome
  obtain ⟨after, given, sameBytes, -, -, counted⟩ := StringHeap.stringDecref_spec holding.live
  refine ⟨after, ?_, ?_, ?_⟩
  · rw [stringSetenv, ran]
    simp only [Exec.ok_bind, StringHeap.content_of_live holding.live, given, Exec.pure_eq_ok, bytes,
      joined_eq_pathList]
  · intro s old
    have here := counted s
    rw [holding.counted s old] at here
    omega
  · intro s old
    rw [sameBytes, holding.bytes s old]

theorem foldlM_stringDecref {heap : StringHeap} {vec : List Nat} (nodup : vec.Nodup)
    (live : ∀ s ∈ vec, 0 < heap.refs.count s) :
    ∃ after, vec.foldlM StringHeap.stringDecref heap = .ok after ∧ after.bytes = heap.bytes ∧
      ∀ s ∉ vec, after.refs.count s = heap.refs.count s := by
  induction vec generalizing heap with
  | nil => exact ⟨heap, rfl, rfl, fun _ _ => rfl⟩
  | cons s vec ih =>
      obtain ⟨fresh, nodup⟩ := List.nodup_cons.mp nodup
      obtain ⟨next, given, bytes, -, -, counted⟩ :=
        StringHeap.stringDecref_spec (live s List.mem_cons_self)
      have others : ∀ other ≠ s, next.refs.count other = heap.refs.count other := by
        intro other apart
        have here := counted other
        rw [if_neg apart] at here
        omega
      obtain ⟨after, ran, bytesAfter, countedAfter⟩ := @ih next nodup (by
        intro other member
        rw [others other (fun same => fresh (same ▸ member))]
        exact live other (List.mem_cons_of_mem _ member))
      refine ⟨after, ?_, bytesAfter.trans bytes, ?_⟩
      · rw [List.foldlM_cons, given]
        exact ran
      · intro other absent
        rw [List.mem_cons, not_or] at absent
        obtain ⟨apart, absent⟩ := absent
        rw [countedAfter other absent, others other apart]

/-- The environment a program is started with. -/
def withLibraries (env : Env) (preloads ompt : List NrmString) : Env :=
  Function.update (Function.update env ldPreload (some (pathList preloads))) ompToolLibraries
    (some (pathList ompt))

theorem setLibraries_spec (env : Env) {libraries : Libraries} {preloads ompt : List NrmString}
    (holds : Holds libraries preloads ompt) :
    ∃ heap, setLibraries env libraries = .ok (heap, withLibraries env preloads ompt) := by
  obtain ⟨nodupPreloads, nodupOmpt, apart⟩ := List.nodup_append.mp holds.nodup
  have livePreloads := fun s member => holds.live s (List.mem_append_left _ member)
  have liveOmpt := fun s member => holds.live s (List.mem_append_right libraries.preloads member)
  obtain ⟨first, setFirst, countFirst, bytesFirst⟩ := stringSetenv_spec env ldPreload livePreloads
  obtain ⟨second, gaveFirst, bytesSecond, countSecond⟩ :=
    @foldlM_stringDecref first _ nodupPreloads (by
      intro s member
      rw [countFirst s (StringHeap.lt_next_of_live (livePreloads s member))]
      exact livePreloads s member)
  -- The second vector is untouched by what was done with the first.
  have liveSecond : ∀ s ∈ libraries.ompt, 0 < second.refs.count s := by
    intro s member
    rw [countSecond s (fun other => apart s other s member rfl),
      countFirst s (StringHeap.lt_next_of_live (liveOmpt s member))]
    exact liveOmpt s member
  have sameBytes : libraries.ompt.map second.bytes = ompt := by
    rw [← holds.ompt]
    apply List.map_congr_left
    intro s member
    rw [bytesSecond, bytesFirst s (StringHeap.lt_next_of_live (liveOmpt s member))]
  obtain ⟨third, setSecond, countThird, -⟩ := stringSetenv_spec
    (Function.update env ldPreload (some (pathList preloads))) ompToolLibraries liveSecond
  obtain ⟨last, gaveSecond, -, -⟩ := @foldlM_stringDecref third _ nodupOmpt (by
    intro s member
    rw [countThird s (StringHeap.lt_next_of_live (liveSecond s member))]
    exact liveSecond s member)
  rw [holds.preloads] at setFirst
  rw [sameBytes] at setSecond
  refine ⟨last, ?_⟩
  simp only [setLibraries, setFirst, gaveFirst, setSecond, gaveSecond, Exec.ok_bind,
    Exec.pure_eq_ok, withLibraries]

theorem map_bytes_stringNew {heap : StringHeap} {vec : List Nat} (path : NrmString)
    (live : ∀ s ∈ vec, 0 < heap.refs.count s) :
    vec.map (heap.stringNew path).1.bytes = vec.map heap.bytes := by
  apply List.map_congr_left
  intro s member
  exact bytes_stringNew_of_live path (live s member)

section Growing

variable {libraries : Libraries} {preloads ompt : List NrmString}

theorem Holds.grown (holds : Holds libraries preloads ompt) (path : NrmString) {strings : List Nat}
    (same : strings.Perm (libraries.heap.next :: (libraries.preloads ++ libraries.ompt))) :
    strings.Nodup ∧ ∀ s ∈ strings, 0 < (libraries.heap.stringNew path).1.refs.count s := by
  have fresh : libraries.heap.next ∉ libraries.preloads ++ libraries.ompt := by
    intro member
    exact Nat.lt_irrefl _ (StringHeap.lt_next_of_live (holds.live _ member))
  refine ⟨same.nodup_iff.mpr (List.nodup_cons.mpr ⟨fresh, holds.nodup⟩), ?_⟩
  intro s member
  rw [count_stringNew]
  obtain rfl | old := List.mem_cons.mp (same.mem_iff.mp member)
  · simp
  · split
    · exact Nat.one_pos
    · exact holds.live s old

theorem Holds.runAct (holds : Holds libraries preloads ompt) (option : RunOption) (path : NrmString) :
    ∃ after, runAct libraries option (some path) = .ok after ∧
      Holds after (preloads ++ if option = .preload then [stringFromchar path] else [])
        (ompt ++ if option = .ompt then [stringFromchar path] else []) := by
  have samePreloads := map_bytes_stringNew (stringFromchar path)
    (fun s member => holds.live s (List.mem_append_left libraries.ompt member))
  have sameOmpt := map_bytes_stringNew (stringFromchar path)
    (fun s member => holds.live s (List.mem_append_right libraries.preloads member))
  have newest : (libraries.heap.stringNew (stringFromchar path)).1.bytes libraries.heap.next =
      stringFromchar path := Function.update_self ..
  cases option with
  | preload =>
      have same : ((libraries.preloads ++ [libraries.heap.next]) ++ libraries.ompt).Perm
          (libraries.heap.next :: (libraries.preloads ++ libraries.ompt)) := by
        rw [List.append_assoc]
        exact List.perm_middle
      obtain ⟨nodup, live⟩ := holds.grown (stringFromchar path) same
      refine ⟨⟨(libraries.heap.stringNew (stringFromchar path)).1,
        libraries.preloads ++ [libraries.heap.next], libraries.ompt⟩, rfl, nodup, live, ?_, ?_⟩
      · rw [if_pos rfl, List.map_append, samePreloads, holds.preloads, List.map_singleton, newest]
      · rw [if_neg (by decide), List.append_nil, sameOmpt, holds.ompt]
  | ompt =>
      have same : (libraries.preloads ++ (libraries.ompt ++ [libraries.heap.next])).Perm
          (libraries.heap.next :: (libraries.preloads ++ libraries.ompt)) := by
        rw [← List.append_assoc]
        exact List.perm_append_singleton _ _
      obtain ⟨nodup, live⟩ := holds.grown (stringFromchar path) same
      refine ⟨⟨(libraries.heap.stringNew (stringFromchar path)).1, libraries.preloads,
        libraries.ompt ++ [libraries.heap.next]⟩, rfl, nodup, live, ?_, ?_⟩
      · rw [if_neg (by decide), List.append_nil, samePreloads, holds.preloads]
      · rw [if_pos rfl, List.map_append, sameOmpt, holds.ompt, List.map_singleton, newest]

theorem offers_runOptions {option : RunOption} {optarg : Option NrmString}
    (offers : runOptions.Offers option optarg) : ∃ path, optarg = some path := by
  have shorts : ∀ short ∈ runOptions.shorts, short.hasArg = true := by decide
  have longs : ∀ long ∈ runOptions.longs, long.hasArg = true := by decide
  apply Option.isSome_iff_exists.mp
  obtain ⟨short, member, -, takes⟩ | ⟨long, member, -, takes⟩ := offers
  · rw [← takes, shorts short member]
  · rw [← takes, longs long member]

/-- The paths given to an option, as strings. -/
def pathsOf (option : RunOption) (tokens : List (RunOption × Option NrmString)) : List NrmString :=
  (given option tokens).map stringFromchar

theorem pathsOf_snoc (option other : RunOption) (tokens : List (RunOption × Option NrmString))
    (path : NrmString) :
    pathsOf option (tokens ++ [(other, some path)]) =
      pathsOf option tokens ++ if other = option then [stringFromchar path] else [] := by
  rw [pathsOf, given_snoc, List.map_append]
  split
  · rfl
  · rfl

theorem Holds.perform (holds : Holds libraries preloads ompt)
    {tokens : List (RunOption × Option NrmString)}
    (offered : ∀ token ∈ tokens, runOptions.Offers token.1 token.2) :
    ∃ after, perform Nrmc.runAct libraries tokens = .ok after ∧
      Holds after (preloads ++ pathsOf .preload tokens) (ompt ++ pathsOf .ompt tokens) := by
  induction tokens using List.reverseRecOn with
  | nil =>
      refine ⟨libraries, rfl, ?_⟩
      simpa [pathsOf, given] using holds
  | append_singleton tokens token ih =>
      obtain ⟨option, optarg⟩ := token
      obtain ⟨path, rfl⟩ := offers_runOptions (offered (option, optarg) (by simp))
      obtain ⟨before, performed, held⟩ :=
        ih fun token member => offered token (List.mem_append_left _ member)
      obtain ⟨after, acted, holdsAfter⟩ := held.runAct option path
      refine ⟨after, perform_snoc.mpr ⟨before, performed, acted⟩, ?_⟩
      rw [pathsOf_snoc, pathsOf_snoc, ← List.append_assoc, ← List.append_assoc]
      exact holdsAfter

/-- What a variable adds. -/
def inherited (env : Env) (envname : NrmString) : List NrmString :=
  (env envname).toList.map stringFromchar

theorem Holds.getenv (env : Env) (heap : StringHeap) :
    Holds
      ⟨(stringGetenv env ompToolLibraries (stringGetenv env ldPreload heap []).1 []).1,
        (stringGetenv env ldPreload heap []).2,
        (stringGetenv env ompToolLibraries (stringGetenv env ldPreload heap []).1 []).2⟩
      (inherited env ldPreload) (inherited env ompToolLibraries) := by
  have start : Holds ⟨heap, [], []⟩ [] [] := ⟨List.nodup_nil, fun _ => nofun, rfl, rfl⟩
  have first : Holds ⟨(stringGetenv env ldPreload heap []).1, (stringGetenv env ldPreload heap []).2, []⟩
      (inherited env ldPreload) [] := by
    unfold stringGetenv inherited
    cases env ldPreload with
    | none => exact start
    | some envstr =>
        obtain ⟨after, acted, holds⟩ := start.runAct .preload envstr
        cases acted
        exact holds
  unfold inherited
  rw [stringGetenv]
  cases env ompToolLibraries with
  | none => exact first
  | some envstr =>
      obtain ⟨after, acted, holds⟩ := first.runAct .ompt envstr
      cases acted
      rw [if_neg (by decide), List.append_nil] at holds
      exact holds

end Growing

/-- The environment that the options of a line and the one before it make. -/
def runEnv (env : Env) (tokens : List (RunOption × Option NrmString)) : Env :=
  withLibraries env (inherited env ldPreload ++ pathsOf .preload tokens)
    (inherited env ompToolLibraries ++ pathsOf .ompt tokens)

theorem cmdRun_iff (env : Env) (heap : StringHeap) (words : List NrmString) (asked : Asked) :
    cmdRun env heap words = .ok asked ↔
      ∃ front tail tokens argv, words = front ++ tail ∧ runOptions.Written front tokens ∧
        runOptions.Ends tail argv ∧ argv ≠ [] ∧ asked = .exec (runEnv env tokens) argv := by
  have holds := Holds.getenv env heap
  unfold cmdRun
  simp only
  constructor
  · intro ran
    split at ran
    · cases ran
    · rename_i libraries argv scanned
      obtain ⟨front, tail, tokens, rfl, written, ends, performed⟩ := (scan_eq_ok_iff ..).mp scanned
      obtain ⟨after, again, held⟩ := holds.perform written.offers
      cases performed.symm.trans again
      obtain ⟨last, set⟩ := setLibraries_spec env held
      rw [set] at ran
      split at ran
      · cases ran
      · rename_i filled
        cases ran
        refine ⟨front, tail, tokens, argv, rfl, written, ends, ?_, rfl⟩
        rintro rfl
        exact filled Nat.zero_lt_one
  · rintro ⟨front, tail, tokens, argv, rfl, written, ends, filled, rfl⟩
    obtain ⟨after, performed, held⟩ := holds.perform written.offers
    obtain ⟨last, set⟩ := setLibraries_spec env held
    rw [(scan_eq_ok_iff ..).mpr ⟨front, tail, tokens, rfl, written, ends, performed⟩]
    simp only [set]
    rw [if_neg]
    · rfl
    · intro short
      exact filled (List.length_eq_zero_iff.mp (by omega))

end LibNrm.Nrmc
