import LibNrm.Roles.Startup

namespace LibNrm.Startup

variable {M : Type}

def Holds (state : Startup M) : Prop :=
  match state.broker with
  | .absent | .enter | .calloc =>
      state.self = .unused ∧ state.rpc = .unused ∧ state.sub = .unused ∧ state.loop = .unused
  | .rpcInit => state.self = .live ∧ state.rpc = .unused ∧ state.sub = .unused ∧ state.loop = .unused
  | .rpcConnect | .subInit =>
      state.self = .live ∧ state.rpc = .live ∧ state.sub = .unused ∧ state.loop = .unused
  | .subConnect | .loopNew =>
      state.self = .live ∧ state.rpc = .live ∧ state.sub = .live ∧ state.loop = .unused
  | .ready | .serving | .loopDestroy =>
      state.self = .live ∧ state.rpc = .live ∧ state.sub = .live ∧ state.loop = .live
  | .cleanupSub => state.self = .live ∧ state.rpc = .live ∧ state.sub = .live ∧ state.loop ≠ .live
  | .cleanupRpc => state.self = .live ∧ state.rpc = .live ∧ state.sub ≠ .live ∧ state.loop ≠ .live
  | .cleanup => state.self = .live ∧ state.rpc ≠ .live ∧ state.sub ≠ .live ∧ state.loop ≠ .live
  | .returned | .ended =>
      state.self ≠ .live ∧ state.rpc ≠ .live ∧ state.sub ≠ .live ∧ state.loop ≠ .live

def Said (state : Startup M) : Prop :=
  match state.broker with
  | .absent | .enter => state.told = []
  | .calloc | .rpcInit | .rpcConnect | .subInit | .subConnect | .loopNew | .ready => state.told = [0]
  | .serving | .loopDestroy => state.told = [0, 0]
  | .cleanupSub | .cleanupRpc | .cleanup | .returned => ∃ status, state.told = [0, status]
  | .ended => ∃ status, state.told = [0, status, 0]

def status (state : Startup M) : Option Int := state.told[1]?

def Knows (state : Startup M) : Prop :=
  match state.creator with
  | .enter => state.broker = .absent ∧ state.heard = 0 ∧ state.pipe = [] ∧ state.role = .unused
  | .actorNew => state.broker = .absent ∧ state.heard = 0 ∧ state.pipe = [] ∧ state.role = .live ∧ state.frame
  | .actorWait | .initWait =>
      state.broker ≠ .absent ∧ state.heard = (if state.creator = .actorWait then 0 else 1) ∧
        state.pipe = [] ∧ state.role = .live ∧ state.frame ∧ (state.status = some 0 → state.broker = .serving)
  | .returned | .actorDestroy false =>
      state.broker = .serving ∧ state.heard = 2 ∧ .term ∉ state.pipe ∧ state.role = .live
  | .actorDestroy true =>
      state.heard = 2 ∧ state.role = .live ∧ state.pipe = [] ∧ ∃ status ≠ 0, state.status = some status
  | .endWait true => state.heard = 2 ∧ state.role = .live ∧ ∃ status ≠ 0, state.status = some status
  | .endWait false => state.heard = 2 ∧ state.role = .live ∧ state.status = some 0 ∧
      (state.broker = .serving ∧ (∃ front, state.pipe = front ++ [.term] ∧ .term ∉ front) ∨
        state.broker ≠ .serving ∧ state.pipe = [])
  | .freeRole failure => state.role = .live ∧
      (state.broker = .ended ∧ (failure = false → state.pipe = []) ∨ state.broker = .absent ∧ failure = true)
  | .failed => state.role ≠ .live ∧ (state.broker = .ended ∨ state.broker = .absent)
  | .destroyed => state.role ≠ .live ∧ state.broker = .ended ∧ state.pipe = []

structure Inv (state : Startup M) : Prop where
  holds : state.Holds
  said : state.Said
  knows : state.Knows
  delivered : state.sent ++ state.pipe.filterMap Ctrl.msg? = state.handed

theorem start_inv : (start : Startup M).Inv := by
  refine ⟨⟨rfl, rfl, rfl, rfl⟩, rfl, ⟨rfl, rfl, rfl, rfl⟩, rfl⟩

theorem Knows.move {state after : Startup M} (knows : state.Knows) (creator : after.creator = state.creator)
    (heard : after.heard = state.heard) (pipe : after.pipe = state.pipe) (frame : after.frame = state.frame)
    (role : after.role = state.role) (running : state.broker ≠ .absent ∧ state.broker ≠ .serving ∧ state.broker ≠ .ended)
    (there : after.broker ≠ .absent) (kept : ∀ status, state.status = some status → after.status = some status)
    (calm : after.status = some 0 → after.broker = .serving ∨ state.status = some 0)
    (new : after.broker = .serving → state.status = none) : after.Knows := by
  obtain ⟨spawned, idle, going⟩ := running
  unfold Knows at knows ⊢
  rw [creator, heard, pipe, frame, role]
  cases pc : state.creator with
  | enter => simp_all
  | actorNew => simp_all
  | actorWait => simp_all
  | initWait => simp_all
  | returned => simp_all
  | failed => simp_all
  | destroyed => simp_all
  | actorDestroy failure =>
      cases failure with
      | true =>
          obtain ⟨heard, role, empty, status, nonzero, known⟩ := by simpa only [pc] using knows
          exact ⟨heard, role, empty, status, nonzero, kept status known⟩
      | false => simp_all
  | endWait failure =>
      cases failure with
      | true =>
          obtain ⟨heard, role, status, nonzero, known⟩ := by simpa only [pc] using knows
          exact ⟨heard, role, status, nonzero, kept status known⟩
      | false =>
          obtain ⟨heard, role, known, side⟩ := by simpa only [pc] using knows
          refine ⟨heard, role, kept 0 known, .inr ⟨fun serving => ?_, ?_⟩⟩
          · rw [new serving] at known
            cases known
          · rcases side with ⟨serving, -⟩ | ⟨-, empty⟩
            · exact absurd serving idle
            · exact empty
  | freeRole failure =>
      rw [pc] at knows
      rcases knows.2 with ⟨ended, -⟩ | ⟨never, -⟩
      · exact absurd ended going
      · exact absurd never spawned

def Busy (state : Startup M) : Prop :=
  state.broker ≠ .absent ∧ state.broker ≠ .serving ∧ state.broker ≠ .ended

/-- Where the broker goes, with what it then has and has said. -/
def moved (state : Startup M) (broker : BrokerPc) (told : List Int) (self rpc sub loop : Slot) : Startup M :=
  { state with broker := broker, told := told, self := self, rpc := rpc, sub := sub, loop := loop }

theorem Inv.moved {state : Startup M} (inv : state.Inv) (busy : state.Busy) {broker : BrokerPc} {told : List Int}
    {self rpc sub loop : Slot} (there : broker ≠ .absent) (longer : state.told <+: told)
    (calm : told[1]? = some 0 → broker = .serving ∨ state.told[1]? = some 0)
    (new : broker = .serving → state.told[1]? = none)
    (holds : (state.moved broker told self rpc sub loop).Holds)
    (said : (state.moved broker told self rpc sub loop).Said) :
    (state.moved broker told self rpc sub loop).Inv := by
  have kept : ∀ status, state.told[1]? = some status → told[1]? = some status := by
    intro status known
    obtain ⟨more, rfl⟩ := longer
    obtain ⟨bound, -⟩ := List.getElem?_eq_some_iff.mp known
    rw [List.getElem?_append_left bound, known]
  exact ⟨holds, said, inv.knows.move rfl rfl rfl rfl rfl busy there kept calm new, inv.delivered⟩

theorem Inv.starting {state : Startup M} (inv : state.Inv) (told : state.told = [0]) :
    state.Busy ∧ state.frame = true := by
  have said := inv.said
  have knows := inv.knows
  have busy : state.Busy := by
    refine ⟨fun pc => ?_, fun pc => ?_, fun pc => ?_⟩ <;> simp [Said, pc, told] at said
  refine ⟨busy, ?_⟩
  obtain ⟨spawned, idle, going⟩ := busy
  unfold Knows at knows
  cases pc : state.creator with
  | actorDestroy failure => cases failure <;> simp_all [status]
  | endWait failure => cases failure <;> simp_all [status]
  | _ => simp_all

theorem Inv.readParams {state : Startup M} (inv : state.Inv) (told : state.told = [0]) :
    state.readParams = .ok () := by
  unfold Startup.readParams
  rw [(inv.starting told).2]
  rfl

theorem Inv.leave {state : Startup M} (inv : state.Inv) (busy : state.Busy) {broker : BrokerPc}
    {self rpc sub loop : Slot} (there : broker ≠ .absent) (later : broker ≠ .serving)
    (holds : (state.moved broker state.told self rpc sub loop).Holds)
    (said : (state.moved broker state.told self rpc sub loop).Said) :
    (state.moved broker state.told self rpc sub loop).Inv :=
  inv.moved busy there (List.prefix_refl _) .inr (fun serving => absurd serving later) holds said

theorem Inv.advance {state : Startup M} (inv : state.Inv) (told : state.told = [0]) {broker : BrokerPc}
    {self rpc sub loop : Slot} (there : broker ≠ .absent) (later : broker ≠ .serving)
    (holds : (state.moved broker state.told self rpc sub loop).Holds)
    (said : (state.moved broker state.told self rpc sub loop).Said) :
    (state.moved broker state.told self rpc sub loop).Inv :=
  inv.leave (inv.starting told).1 there later holds said

theorem Inv.giveUp {state : Startup M} (inv : state.Inv) (told : state.told = [0]) {result : Int} {label : BrokerPc}
    (nonzero : result % 256 ≠ 0)
    (cleaning : label = .cleanupSub ∨ label = .cleanupRpc ∨ label = .cleanup ∨ label = .returned)
    (holds : (state.giveUp result label).Holds) : (state.giveUp result label).Inv := by
  have there : label ≠ .absent := by rintro rfl; simp at cleaning
  have later : label ≠ .serving := by rintro rfl; simp at cleaning
  have now : (state.giveUp result label).told = [0, result % 256] := by
    unfold Startup.giveUp signal
    rw [told]
    rfl
  refine inv.moved (inv.starting told).1 there (List.prefix_append _ _) ?_ (fun serving => absurd serving later)
    holds ?_
  · intro zero
    simp only [signal, told] at zero
    exact absurd (Option.some.inj zero) nonzero
  · rcases cleaning with rfl | rfl | rfl | rfl <;> exact ⟨_, now⟩

theorem Inv.first {state : Startup M} (inv : state.Inv) (serving : state.broker = .serving) {msg : Ctrl M}
    {rest : List (Ctrl M)} (pipe : state.pipe = msg :: rest) :
    msg ≠ .term ∧ Knows { state with pipe := rest } ∨
      msg = .term ∧ rest = [] ∧ state.creator = .endWait false ∧ state.heard = 2 ∧ state.role = .live ∧
        state.status = some 0 := by
  have said := inv.said
  have knows := inv.knows
  simp only [Said, serving] at said
  have status : state.status = some 0 := by
    unfold Startup.status
    rw [said]
    rfl
  unfold Knows at knows
  cases pc : state.creator with
  | returned =>
      simp only [pc, pipe, List.mem_cons, not_or] at knows
      obtain ⟨-, heard, ⟨other, none⟩, role⟩ := knows
      refine .inl ⟨Ne.symm other, ?_⟩
      simp only [Knows]
      exact ⟨serving, heard, none, role⟩
  | actorDestroy failure =>
      cases failure with
      | true => simp_all
      | false =>
          simp only [pc, pipe, List.mem_cons, not_or] at knows
          obtain ⟨-, heard, ⟨other, none⟩, role⟩ := knows
          refine .inl ⟨Ne.symm other, ?_⟩
          simp only [Knows]
          exact ⟨serving, heard, none, role⟩
  | endWait failure =>
      cases failure with
      | true => simp_all
      | false =>
          simp only [pc] at knows
          obtain ⟨heard, role, -, ⟨-, front, shape, none⟩ | ⟨other, -⟩⟩ := knows
          · rw [pipe] at shape
            cases front with
            | nil =>
                obtain ⟨rfl, rfl⟩ := List.cons.inj shape
                exact .inr ⟨rfl, rfl, rfl, heard, role, status⟩
            | cons first front =>
                obtain ⟨rfl, rfl⟩ := List.cons.inj shape
                rw [List.mem_cons, not_or] at none
                refine .inl ⟨Ne.symm none.1, ?_⟩
                simp only [Knows]
                exact ⟨heard, role, status, .inl ⟨serving, front, rfl, none.2⟩⟩
          · exact absurd serving other
  | _ => simp_all

theorem Inv.pipeHandler {state : Startup M} (inv : state.Inv) (serving : state.broker = .serving) {msg : Ctrl M}
    {rest : List (Ctrl M)} (pipe : state.pipe = msg :: rest) :
    (Startup.pipeHandler { state with pipe := rest } msg).Inv := by
  have holds := inv.holds
  have said := inv.said
  have delivered := inv.delivered
  rw [pipe] at delivered
  rcases inv.first serving pipe with ⟨other, knows⟩ | ⟨rfl, rfl, pc, heard, role, status⟩
  · cases msg with
    | send msg => exact ⟨holds, said, knows, by rw [← delivered]; simp [Startup.pipeHandler, Ctrl.msg?]⟩
    | sub => exact ⟨holds, said, knows, delivered⟩
    | term => exact absurd rfl other
  · simp only [Holds, Said, serving] at holds said
    refine ⟨holds, said, ?_, delivered⟩
    simp only [Knows, Startup.pipeHandler, pc]
    exact ⟨heard, role, status, .inr ⟨nofun, trivial⟩⟩

theorem Inv.role_live {state : Startup M} (inv : state.Inv) (serving : state.broker = .serving) :
    state.role = .live := by
  have knows := inv.knows
  unfold Knows at knows
  cases pc : state.creator with
  | actorDestroy failure => cases failure <;> simp_all
  | endWait failure => cases failure <;> simp_all
  | _ => simp_all

def Survives (next : Exec (Startup M)) : Prop := ∃ after, next = .ok after ∧ after.Inv

theorem Inv.enters {state : Startup M} (inv : state.Inv) (pc : state.broker = .enter) (result : Int) :
    Survives (state.brokerStep true result) := by
  have holds := inv.holds
  have said := inv.said
  simp only [Holds, Said, pc] at holds said
  simp only [Startup.brokerStep, pc]
  refine ⟨_, rfl, inv.moved ?_ ?_ ?_ ?_ ?_ holds ?_⟩
  · simp [Busy, pc]
  · simp
  · simp [said]
  · simp [said, signal]
  · simp
  · show state.told ++ [0] = [0]
    rw [said]
    rfl

theorem Inv.allocates {state : Startup M} (inv : state.Inv) (pc : state.broker = .calloc) (result : Int) :
    Survives (state.brokerStep true result) := by
  have holds := inv.holds
  have said := inv.said
  simp only [Holds, Said, pc] at holds said
  simp only [Startup.brokerStep, pc]
  by_cases error : result ≠ 0
  · rw [if_pos error]
    refine ⟨_, rfl, inv.giveUp said (by decide) (by decide) ?_⟩
    simp [Holds, Startup.giveUp, signal, holds]
  · rw [if_neg error, inv.readParams said]
    exact ⟨_, rfl, inv.advance said nofun nofun ⟨rfl, holds.2⟩ said⟩

theorem neg_netResult {result : Int} (low : -256 < result) (high : result < 256)
    (error : netResult true result ≠ 0) : -netResult true result % 256 ≠ 0 := by
  have same : netResult true result = result := rfl
  rw [same] at error ⊢
  omega

theorem Inv.makesRpc {state : Startup M} (inv : state.Inv) (pc : state.broker = .rpcInit) {result : Int}
    (low : -256 < result) (high : result < 256) : Survives (state.brokerStep true result) := by
  have holds := inv.holds
  have said := inv.said
  simp only [Holds, Said, pc] at holds said
  simp only [Startup.brokerStep, pc]
  by_cases error : netResult true result ≠ 0
  · rw [if_pos error]
    refine ⟨_, rfl, inv.giveUp said (neg_netResult low high error) (by decide) ?_⟩
    simp [Holds, Startup.giveUp, signal, holds]
  · rw [if_neg error]
    exact ⟨_, rfl, inv.advance said nofun nofun ⟨holds.1, rfl, holds.2.2⟩ said⟩

theorem Inv.connectsRpc {state : Startup M} (inv : state.Inv) (pc : state.broker = .rpcConnect) {result : Int}
    (low : -256 < result) (high : result < 256) : Survives (state.brokerStep true result) := by
  have holds := inv.holds
  have said := inv.said
  simp only [Holds, Said, pc] at holds said
  simp only [Startup.brokerStep, pc, inv.readParams said]
  by_cases error : netResult true result ≠ 0
  · refine ⟨_, if_pos error, inv.giveUp said (neg_netResult low high error) (by decide) ?_⟩
    simp [Holds, Startup.giveUp, signal, holds]
  · exact ⟨_, if_neg error, inv.advance said nofun nofun holds said⟩

theorem Inv.makesSub {state : Startup M} (inv : state.Inv) (pc : state.broker = .subInit) {result : Int}
    (low : -256 < result) (high : result < 256) : Survives (state.brokerStep true result) := by
  have holds := inv.holds
  have said := inv.said
  simp only [Holds, Said, pc] at holds said
  simp only [Startup.brokerStep, pc]
  by_cases error : netResult true result ≠ 0
  · rw [if_pos error]
    refine ⟨_, rfl, inv.giveUp said (neg_netResult low high error) (by decide) ?_⟩
    simp [Holds, Startup.giveUp, signal, holds]
  · rw [if_neg error]
    exact ⟨_, rfl, inv.advance said nofun nofun ⟨holds.1, holds.2.1, rfl, holds.2.2.2⟩ said⟩

theorem Inv.connectsSub {state : Startup M} (inv : state.Inv) (pc : state.broker = .subConnect) {result : Int}
    (low : -256 < result) (high : result < 256) : Survives (state.brokerStep true result) := by
  have holds := inv.holds
  have said := inv.said
  simp only [Holds, Said, pc] at holds said
  simp only [Startup.brokerStep, pc, inv.readParams said]
  by_cases error : netResult true result ≠ 0
  · refine ⟨_, if_pos error, inv.giveUp said (neg_netResult low high error) (by decide) ?_⟩
    simp [Holds, Startup.giveUp, signal, holds]
  · exact ⟨_, if_neg error, inv.advance said nofun nofun holds said⟩

theorem Inv.makesLoop {state : Startup M} (inv : state.Inv) (pc : state.broker = .loopNew) (result : Int) :
    Survives (state.brokerStep true result) := by
  have holds := inv.holds
  have said := inv.said
  simp only [Holds, Said, pc] at holds said
  obtain ⟨self, rpc, sub, loop⟩ := holds
  have sockets : assert (state.rpc = .live ∧ state.sub = .live) = .ok () := by
    rw [rpc, sub]
    rfl
  simp only [Startup.brokerStep, pc, sockets]
  by_cases error : result ≠ 0
  · rw [if_pos error]
    refine ⟨_, rfl, inv.giveUp said (by decide) (by decide) ?_⟩
    simp [Holds, Startup.giveUp, signal, self, rpc, sub, loop]
  · rw [if_neg error]
    exact ⟨_, rfl, inv.advance said nofun nofun ⟨self, rpc, sub, rfl⟩ said⟩

theorem Inv.isReady {state : Startup M} (inv : state.Inv) (pc : state.broker = .ready) (result : Int) :
    Survives (state.brokerStep true result) := by
  have holds := inv.holds
  have said := inv.said
  simp only [Holds, Said, pc] at holds said
  simp only [Startup.brokerStep, pc]
  refine ⟨_, rfl, inv.moved (inv.starting said).1 nofun (List.prefix_append _ _) (fun _ => .inl rfl) ?_ holds ?_⟩
  · intro _
    rw [said]
    rfl
  · show state.told ++ [0] = [0, 0]
    rw [said]
    rfl

theorem Inv.serves {state : Startup M} (inv : state.Inv) (pc : state.broker = .serving)
    (fed : state.pipe ≠ []) : Survives (state.brokerStep true 0) := by
  simp only [Startup.brokerStep, pc]
  cases pipe : state.pipe with
  | nil => exact absurd pipe fed
  | cons msg rest => exact ⟨_, by rw [if_neg (not_not.mpr rfl), ← pc], inv.pipeHandler pc pipe⟩

theorem Inv.cleans {state : Startup M} (inv : state.Inv)
    (pc : state.broker = .loopDestroy ∨ state.broker = .cleanupSub ∨ state.broker = .cleanupRpc ∨
      state.broker = .cleanup) (result : Int) : Survives (state.brokerStep true result) := by
  have holds := inv.holds
  have said := inv.said
  rcases pc with pc | pc | pc | pc <;> simp only [Holds, Said, pc] at holds said
  · simp only [Startup.brokerStep, pc, holds.2.2.2]
    exact ⟨_, rfl, inv.leave (by simp [Busy, pc]) nofun nofun ⟨holds.1, holds.2.1, holds.2.2.1, nofun⟩ ⟨0, said⟩⟩
  · simp only [Startup.brokerStep, pc, holds.2.2.1]
    exact ⟨_, rfl, inv.leave (by simp [Busy, pc]) nofun nofun ⟨holds.1, holds.2.1, nofun, holds.2.2.2⟩ said⟩
  · simp only [Startup.brokerStep, pc, holds.2.1]
    exact ⟨_, rfl, inv.leave (by simp [Busy, pc]) nofun nofun ⟨holds.1, nofun, holds.2.2⟩ said⟩
  · simp only [Startup.brokerStep, pc, holds.1]
    exact ⟨_, rfl, inv.leave (by simp [Busy, pc]) nofun nofun ⟨nofun, holds.2⟩ said⟩

theorem Inv.ends {state : Startup M} (inv : state.Inv) (pc : state.broker = .returned) (result : Int) :
    Survives (state.brokerStep true result) := by
  have holds := inv.holds
  have said := inv.said
  simp only [Holds, Said, pc] at holds said
  simp only [Startup.brokerStep, pc]
  obtain ⟨status, said⟩ := said
  refine ⟨_, rfl, inv.moved (by simp [Busy, pc]) nofun (List.prefix_append _ _) ?_ nofun holds ⟨status, ?_⟩⟩
  · intro zero
    right
    simpa [signal, said] using zero
  · show state.told ++ [0] = [0, status, 0]
    rw [said]
    rfl

/-- The broker reads its arguments while they stand and frees nothing twice. -/
theorem Inv.brokerStep {state : Startup M} (inv : state.Inv) {result : Int}
    (allowed : state.Allowed (.broker result)) (calm : ¬ state.Interrupts (.broker result)) :
    Survives (state.brokerStep true result) := by
  obtain ⟨low, high, waits⟩ := allowed
  unfold brokerMoves at waits
  cases pc : state.broker with
  | absent => simp [pc] at waits
  | ended => simp [pc] at waits
  | enter => exact inv.enters pc result
  | calloc => exact inv.allocates pc result
  | rpcInit => exact inv.makesRpc pc low high
  | rpcConnect => exact inv.connectsRpc pc low high
  | subInit => exact inv.makesSub pc low high
  | subConnect => exact inv.connectsSub pc low high
  | loopNew => exact inv.makesLoop pc result
  | ready => exact inv.isReady pc result
  | serving =>
      have unbroken : result = 0 := by
        by_contra broken
        exact calm ⟨pc, broken⟩
      subst unbroken
      exact inv.serves pc (by simpa [pc] using waits)
  | loopDestroy => exact inv.cleans (by simp [pc]) result
  | cleanupSub => exact inv.cleans (by simp [pc]) result
  | cleanupRpc => exact inv.cleans (by simp [pc]) result
  | cleanup => exact inv.cleans (by simp [pc]) result
  | returned => exact inv.ends pc result

theorem Said.finished {state : Startup M} (said : state.Said) (length : 2 < state.told.length) :
    state.broker = .ended := by
  unfold Said at said
  cases pc : state.broker with
  | ended => rfl
  | _ =>
      simp only [pc] at said
      grind

theorem getD_status {state : Startup M} (bound : 1 < state.told.length) :
    state.status = some (state.told.getD 1 0) := by
  unfold Startup.status
  rw [List.getD_eq_getElem?_getD, List.getElem?_eq_getElem bound]
  rfl

theorem Inv.creates {state : Startup M} (inv : state.Inv) (pc : state.creator = .enter) (result : Int) :
    Survives (state.creatorStep result) := by
  obtain ⟨holds, said, knows, delivered⟩ := inv
  simp only [Knows, pc] at knows
  obtain ⟨absent, heard, pipe, role⟩ := knows
  simp only [Startup.creatorStep, pc]
  by_cases error : result ≠ 0
  · rw [if_pos error]
    exact ⟨_, rfl, holds, said, ⟨by simp [role], .inr absent⟩, delivered⟩
  · rw [if_neg error]
    exact ⟨_, rfl, holds, said, ⟨absent, heard, pipe, rfl, rfl⟩, delivered⟩

theorem Inv.spawns {state : Startup M} (inv : state.Inv) (pc : state.creator = .actorNew) (result : Int) :
    Survives (state.creatorStep result) := by
  obtain ⟨holds, said, knows, delivered⟩ := inv
  simp only [Knows, pc] at knows
  obtain ⟨absent, heard, pipe, role, frame⟩ := knows
  simp only [Startup.creatorStep, pc]
  by_cases error : result ≠ 0
  · rw [if_pos error]
    exact ⟨_, rfl, holds, said, ⟨role, .inr ⟨absent, rfl⟩⟩, delivered⟩
  · rw [if_neg error]
    simp only [Holds, Said, absent] at holds said
    refine ⟨_, rfl, holds, said, ⟨nofun, heard, pipe, role, frame, ?_⟩, delivered⟩
    simp [status, said]

theorem Inv.shakes {state : Startup M} (inv : state.Inv) (pc : state.creator = .actorWait) :
    Survives (state.creatorStep 0) := by
  obtain ⟨holds, said, knows, delivered⟩ := inv
  simp only [Knows, pc] at knows
  obtain ⟨spawned, heard, pipe, role, frame, calm⟩ := knows
  simp only [Startup.creatorStep, pc]
  refine ⟨_, rfl, holds, said, ⟨spawned, ?_, pipe, role, frame, calm⟩, delivered⟩
  simp [wait, hear, heard]

theorem Inv.awaits {state : Startup M} (inv : state.Inv) (pc : state.creator = .initWait)
    (signalled : state.heard < state.told.length) : Survives (state.creatorStep 0) := by
  obtain ⟨holds, said, knows, delivered⟩ := inv
  simp only [Knows, pc] at knows
  obtain ⟨spawned, heard, pipe, role, frame, calm⟩ := knows
  have heard : state.heard = 1 := by simpa using heard
  have next : state.hear.1 = state.told.getD 1 0 := by simp [hear, heard]
  have known : state.status = some state.hear.1 := by
    rw [next]
    exact getD_status (by omega)
  have waited : state.wait 0 = state.hear := rfl
  simp only [Startup.creatorStep, pc, waited]
  by_cases error : state.hear.1 ≠ 0
  · rw [if_pos error]
    exact ⟨_, rfl, holds, said, ⟨by simp [hear, heard], role, pipe, _, error, known⟩, delivered⟩
  · rw [if_neg error]
    have serving := calm (by rw [known, not_not.mp error])
    exact ⟨_, rfl, holds, said, ⟨serving, by simp [hear, heard], by simp [hear, pipe], role⟩, delivered⟩

theorem Inv.terminates {state : Startup M} (inv : state.Inv) {failure : Bool}
    (pc : state.creator = .actorDestroy failure) (result : Int) : Survives (state.creatorStep result) := by
  obtain ⟨holds, said, knows, delivered⟩ := inv
  have delivered : state.sent ++ (state.pipe ++ [Ctrl.term]).filterMap Ctrl.msg? = state.handed := by
    rw [← delivered]
    simp [Ctrl.msg?]
  simp only [Startup.creatorStep, pc]
  cases failure with
  | true =>
      simp only [Knows, pc] at knows
      obtain ⟨heard, role, -, known⟩ := knows
      exact ⟨_, rfl, holds, said, ⟨heard, role, known⟩, delivered⟩
  | false =>
      simp only [Knows, pc] at knows
      obtain ⟨serving, heard, none, role⟩ := knows
      refine ⟨_, rfl, holds, said, ⟨heard, role, ?_, .inl ⟨serving, state.pipe, rfl, none⟩⟩, delivered⟩
      simp only [Said, serving] at said
      simp [status, said]

theorem Inv.joins {state : Startup M} (inv : state.Inv) {failure : Bool}
    (pc : state.creator = .endWait failure) (signalled : state.heard < state.told.length) :
    Survives (state.creatorStep 0) := by
  obtain ⟨holds, said, knows, delivered⟩ := inv
  simp only [Startup.creatorStep, pc]
  cases failure with
  | true =>
      simp only [Knows, pc] at knows
      obtain ⟨heard, role, -⟩ := knows
      exact ⟨_, rfl, holds, said, ⟨role, .inl ⟨said.finished (by omega), nofun⟩⟩, delivered⟩
  | false =>
      simp only [Knows, pc] at knows
      obtain ⟨heard, role, -, side⟩ := knows
      have ended := said.finished (by omega)
      rw [ended] at side
      have pipe : state.pipe = [] := by simpa using side
      exact ⟨_, rfl, holds, said, ⟨role, .inl ⟨ended, fun _ => pipe⟩⟩, delivered⟩

theorem Inv.frees {state : Startup M} (inv : state.Inv) {failure : Bool}
    (pc : state.creator = .freeRole failure) (result : Int) : Survives (state.creatorStep result) := by
  obtain ⟨holds, said, knows, delivered⟩ := inv
  simp only [Knows, pc] at knows
  obtain ⟨role, side⟩ := knows
  simp only [Startup.creatorStep, pc, role]
  refine ⟨_, rfl, holds, said, ?_, delivered⟩
  cases failure with
  | true => exact ⟨nofun, by tauto⟩
  | false => exact ⟨nofun, by tauto⟩

theorem Inv.creatorStep {state : Startup M} (inv : state.Inv) {result : Int}
    (allowed : state.Allowed (.creator result)) (calm : ¬ state.Interrupts (.creator result)) :
    Survives (state.creatorStep result) := by
  have unbroken (waiting : state.creator.waits = true) : result = 0 := by
    by_contra broken
    exact calm ⟨waiting, broken⟩
  unfold Allowed creatorMoves at allowed
  cases pc : state.creator with
  | returned => simp [pc] at allowed
  | failed => simp [pc] at allowed
  | destroyed => simp [pc] at allowed
  | enter => exact inv.creates pc result
  | actorNew => exact inv.spawns pc result
  | actorWait =>
      obtain rfl := unbroken (by rw [pc]; rfl)
      exact inv.shakes pc
  | initWait =>
      obtain rfl := unbroken (by rw [pc]; rfl)
      exact inv.awaits pc (by simpa [pc] using allowed)
  | actorDestroy failure => exact inv.terminates pc result
  | endWait failure =>
      obtain rfl := unbroken (by rw [pc]; rfl)
      exact inv.joins pc (by simpa [pc] using allowed)
  | freeRole failure => exact inv.frees pc result

theorem Inv.step {state : Startup M} (inv : state.Inv) {action : Action M} (allowed : state.Allowed action)
    (calm : ¬ state.Interrupts action) : Survives (state.step true action) := by
  cases action with
  | creator result => exact inv.creatorStep allowed calm
  | broker result => exact inv.brokerStep allowed calm
  | send msg =>
      have knows := inv.knows
      have pc : state.creator = .returned := allowed
      simp only [Knows, pc] at knows
      obtain ⟨serving, heard, none, role⟩ := knows
      refine ⟨_, rfl, inv.holds, inv.said, ?_, ?_⟩
      · simp only [Knows, pc]
        exact ⟨serving, heard, by simp [none], role⟩
      · simp [← inv.delivered, Ctrl.msg?]
  | subscribe =>
      have knows := inv.knows
      have pc : state.creator = .returned := allowed
      simp only [Knows, pc] at knows
      obtain ⟨serving, heard, none, role⟩ := knows
      refine ⟨_, rfl, inv.holds, inv.said, ?_, ?_⟩
      · simp only [Knows, pc]
        exact ⟨serving, heard, by simp [none], role⟩
      · simp [← inv.delivered, Ctrl.msg?]
  | network =>
      refine ⟨state, ?_, inv⟩
      have serving : state.broker = .serving := allowed
      exact if_pos (inv.role_live serving)
  | destroy =>
      have knows := inv.knows
      have pc : state.creator = .returned := allowed
      simp only [Knows, pc] at knows
      exact ⟨_, rfl, inv.holds, inv.said, knows, inv.delivered⟩

end LibNrm.Startup
