import LibNrm.Roles.Startup.Invariant

namespace LibNrm.Startup

variable {M : Type}

def rank (state : Startup M) : Nat := state.creator.rank + state.broker.rank + state.pipe.length

def Action.IsThread : Action M → Prop
  | .creator _ | .broker _ => True
  | .send _ | .subscribe | .network | .destroy => False

theorem creatorStep_rank {state after : Startup M} {result : Int} (allowed : state.Allowed (.creator result))
    (stepped : state.creatorStep result = .ok after) : after.rank < state.rank := by
  unfold Allowed creatorMoves at allowed
  unfold creatorStep at stepped
  unfold rank
  cases pc : state.creator with
  | returned => simp [pc] at allowed
  | failed => simp [pc] at allowed
  | destroyed => simp [pc] at allowed
  | enter | actorNew =>
      simp only [pc] at stepped
      split at stepped <;> cases stepped <;> simp [CreatorPc.rank]
      -- the new thread has fourteen steps to go
      all_goals simp only [BrokerPc.rank]; omega
  | initWait =>
      have kept : (state.wait result).2.broker = state.broker ∧ (state.wait result).2.pipe = state.pipe := by
        unfold wait
        split <;> exact ⟨rfl, rfl⟩
      simp only [pc] at stepped
      split at stepped <;> cases stepped <;> simp [CreatorPc.rank, kept]
  | actorWait | endWait failure =>
      simp only [pc, wait] at stepped
      split at stepped <;> cases stepped <;> simp only [CreatorPc.rank, hear] <;> omega
  | actorDestroy failure =>
      simp only [pc] at stepped
      cases stepped
      simp only [CreatorPc.rank, List.length_append, List.length_singleton]
      omega
  | freeRole failure =>
      simp only [pc] at stepped
      cases freed : state.role.release with
      | error fault =>
          rw [freed] at stepped
          cases stepped
      | ok role =>
          rw [freed] at stepped
          cases stepped
          cases failure <;> simp [CreatorPc.rank]

theorem brokerStep_pc {transmit : Bool} {state after : Startup M} {result : Int} (allowed : state.Allowed (.broker result))
    (idle : state.broker ≠ .serving) (stepped : state.brokerStep transmit result = .ok after) :
    after.creator = state.creator ∧ after.pipe = state.pipe ∧ after.broker.rank < state.broker.rank := by
  have waits := allowed.2.2
  unfold brokerMoves at waits
  unfold brokerStep at stepped
  cases pc : state.broker with
  | absent => simp [pc] at waits
  | ended => simp [pc] at waits
  | serving => exact absurd pc idle
  | enter | ready | returned =>
      simp only [pc] at stepped
      cases stepped
      exact ⟨rfl, rfl, by simp [BrokerPc.rank]⟩
  | rpcInit | subInit =>
      simp only [pc] at stepped
      split at stepped <;> cases stepped <;> exact ⟨rfl, rfl, by simp [giveUp, BrokerPc.rank]⟩
  | calloc | loopNew =>
      simp only [pc] at stepped
      split at stepped
      · cases stepped
        exact ⟨rfl, rfl, by simp [giveUp, BrokerPc.rank]⟩
      · obtain ⟨-, -, done⟩ := Exec.bind_eq_ok.mp stepped
        cases done
        exact ⟨rfl, rfl, by simp [BrokerPc.rank]⟩
  | rpcConnect | subConnect =>
      simp only [pc] at stepped
      obtain ⟨-, -, done⟩ := Exec.bind_eq_ok.mp stepped
      split at done <;> cases done <;> exact ⟨rfl, rfl, by simp [giveUp, BrokerPc.rank]⟩
  | loopDestroy | cleanupSub | cleanupRpc | cleanup =>
      simp only [pc] at stepped
      obtain ⟨slot, -, done⟩ := Exec.bind_eq_ok.mp stepped
      cases done
      exact ⟨rfl, rfl, by simp [BrokerPc.rank]⟩

theorem brokerStep_rank {transmit : Bool} {state after : Startup M} {result : Int}
    (allowed : state.Allowed (.broker result)) (stepped : state.brokerStep transmit result = .ok after) :
    after.rank < state.rank := by
  unfold rank
  by_cases serving : state.broker = .serving
  · have waits := allowed.2.2
    unfold brokerMoves at waits
    unfold brokerStep at stepped
    simp only [serving] at stepped waits
    by_cases broken : result ≠ 0
    · rw [if_pos broken] at stepped
      cases stepped
      simp only [serving, BrokerPc.rank]
      omega
    · rw [if_neg broken] at stepped
      cases pipe : state.pipe with
      | nil => simp [pipe, not_not.mp broken] at waits
      | cons msg rest =>
          simp only [pipe] at stepped
          cases stepped
          cases msg <;> simp only [pipeHandler, serving, BrokerPc.rank, List.length_cons] <;> omega
  · obtain ⟨creator, pipe, lower⟩ := brokerStep_pc allowed serving stepped
    rw [creator, pipe]
    omega

theorem step_rank {transmit : Bool} {state after : Startup M} {action : Action M} (thread : action.IsThread)
    (allowed : state.Allowed action) (stepped : state.step transmit action = .ok after) :
    after.rank < state.rank := by
  cases action with
  | creator result => exact creatorStep_rank allowed stepped
  | broker result => exact brokerStep_rank allowed stepped
  | _ => exact thread.elim

theorem Inv.rank_le {state : Startup M} (inv : state.Inv) : state.rank ≤ 23 + state.pipe.length := by
  have knows := inv.knows
  have most : state.broker.rank ≤ 14 := by cases state.broker <;> decide
  unfold Knows at knows
  unfold rank
  cases pc : state.creator with
  | enter =>
      simp only [pc] at knows
      rw [knows.1]
      simp [CreatorPc.rank, BrokerPc.rank]
  | actorNew =>
      simp only [pc] at knows
      rw [knows.1]
      simp [CreatorPc.rank, BrokerPc.rank]
  | _ =>
      simp only [CreatorPc.rank]
      omega

theorem broker_allowed {state : Startup M} (spawned : state.broker ≠ .absent) (going : state.broker ≠ .ended)
    (fed : state.broker = .serving → state.pipe ≠ []) : state.Allowed (.broker 0) := by
  refine ⟨by decide, by decide, ?_⟩
  unfold brokerMoves
  cases pc : state.broker with
  | absent => exact absurd pc spawned
  | ended => exact absurd pc going
  | serving => simpa using fed pc
  | _ => rfl

theorem Said.serving {state : Startup M} (said : state.Said) (pc : state.broker = .serving) :
    state.told = [0, 0] := by
  simpa only [Said, pc] using said

theorem Said.ended {state : Startup M} (said : state.Said) (pc : state.broker = .ended) :
    state.told.length = 3 := by
  simp only [Said, pc] at said
  obtain ⟨status, said⟩ := said
  rw [said]
  rfl

theorem Said.spawned {state : Startup M} (said : state.Said) {status : Int} (known : state.status = some status) :
    state.broker ≠ .absent := by
  intro pc
  simp only [Said, pc] at said
  simp [Startup.status, said] at known

theorem not_interrupts_zero (state : Startup M) :
    ¬ state.Interrupts (.creator 0) ∧ ¬ state.Interrupts (.broker 0) :=
  ⟨fun broken => broken.2 rfl, fun broken => broken.2 rfl⟩

/-- A creator that waits waits for a broker that can go on. -/
theorem Inv.waits {state : Startup M} (inv : state.Inv) (waiting : state.creator.rank ≠ 0) :
    ∃ action : Action M, action.IsThread ∧ state.Allowed action ∧ ¬ state.Interrupts action := by
  obtain ⟨creatorCalm, brokerCalm⟩ := state.not_interrupts_zero
  have said := inv.said
  have knows := inv.knows
  by_cases signalled : state.heard < state.told.length
  · refine ⟨.creator 0, trivial, ?_, creatorCalm⟩
    unfold Allowed creatorMoves
    cases pc : state.creator <;> simp_all [CreatorPc.rank]
  have going : state.heard ≤ 2 → state.broker ≠ .ended := by
    intro heard pc
    have length := said.ended pc
    omega
  have unready : state.heard ≤ 1 → state.broker ≠ .serving := by
    intro heard pc
    rw [said.serving pc] at signalled
    simp at signalled
    omega
  cases pc : state.creator with
  | returned => simp [pc, CreatorPc.rank] at waiting
  | failed => simp [pc, CreatorPc.rank] at waiting
  | destroyed => simp [pc, CreatorPc.rank] at waiting
  | enter | actorNew | actorDestroy failure | freeRole failure =>
      exact ⟨.creator 0, trivial, by simp [Allowed, creatorMoves, pc], creatorCalm⟩
  | actorWait | initWait =>
      simp only [Knows, pc] at knows
      obtain ⟨spawned, heard, -⟩ := knows
      have heard : state.heard ≤ 1 := by simp at heard; omega
      exact ⟨.broker 0, trivial,
        broker_allowed spawned (going (by omega)) (fun pc => absurd pc (unready heard)), brokerCalm⟩
  | endWait failure =>
      cases failure with
      | true =>
          simp only [Knows, pc] at knows
          obtain ⟨heard, -, status, nonzero, known⟩ := knows
          refine ⟨.broker 0, trivial, broker_allowed (said.spawned known) (going (by omega)) (fun pc => ?_), brokerCalm⟩
          rw [Startup.status, said.serving pc] at known
          exact absurd (Option.some.inj known).symm nonzero
      | false =>
          simp only [Knows, pc] at knows
          obtain ⟨heard, -, known, side⟩ := knows
          refine ⟨.broker 0, trivial, broker_allowed (said.spawned known) (going (by omega)) (fun pc => ?_), brokerCalm⟩
          rcases side with ⟨-, front, shape, -⟩ | ⟨other, -⟩
          · rw [shape]
            simp
          · exact absurd pc other

def Step (transmit : Bool) (before : Startup M) (action : Action M) (after : Startup M) : Prop :=
  before.Allowed action ∧ before.step transmit action = .ok after

/-- A step during which no wait and no loop is interrupted. -/
def Calm (transmit : Bool) (before : Startup M) (action : Action M) (after : Startup M) : Prop :=
  (before.Allowed action ∧ ¬ before.Interrupts action) ∧ before.step transmit action = .ok after

def Live (state : Startup M) : Prop :=
  state.role = .live ∧ state.self = .live ∧ state.rpc = .live ∧ state.sub = .live ∧ state.loop = .live

def Clean (state : Startup M) : Prop :=
  state.role ≠ .live ∧ state.self ≠ .live ∧ state.rpc ≠ .live ∧ state.sub ≠ .live ∧ state.loop ≠ .live

theorem Inv.returned {state : Startup M} (inv : state.Inv) (pc : state.creator = .returned) :
    state.broker = .serving ∧ state.Live := by
  obtain ⟨holds, -, knows, -⟩ := inv
  simp only [Knows, pc] at knows
  obtain ⟨serving, -, -, role⟩ := knows
  simp only [Holds, serving] at holds
  exact ⟨serving, role, holds⟩

theorem Inv.failed {state : Startup M} (inv : state.Inv) (pc : state.creator = .failed) :
    (state.broker = .ended ∨ state.broker = .absent) ∧ state.Clean := by
  obtain ⟨holds, -, knows, -⟩ := inv
  simp only [Knows, pc] at knows
  obtain ⟨role, gone⟩ := knows
  refine ⟨gone, role, ?_⟩
  rcases gone with ended | absent
  · simpa only [Holds, ended] using holds
  · simp only [Holds, absent] at holds
    simp [holds]

theorem Inv.destroyed {state : Startup M} (inv : state.Inv) (pc : state.creator = .destroyed) :
    state.broker = .ended ∧ state.Clean ∧ state.sent = state.handed := by
  obtain ⟨holds, -, knows, delivered⟩ := inv
  simp only [Knows, pc] at knows
  obtain ⟨role, ended, pipe⟩ := knows
  simp only [Holds, ended] at holds
  rw [pipe] at delivered
  exact ⟨ended, ⟨role, holds⟩, by simpa using delivered⟩

theorem Inv.settled {state : Startup M} (inv : state.Inv) :
    state.creator = .returned ∨ state.creator = .failed ∨ state.creator = .destroyed ∨
      ∃ action : Action M, action.IsThread ∧ state.Allowed action ∧ ¬ state.Interrupts action := by
  by_cases waiting : state.creator.rank = 0
  · cases pc : state.creator <;> simp [pc, CreatorPc.rank] at waiting ⊢
  · exact .inr (.inr (.inr (inv.waits waiting)))

theorem run_inv {actions : List (Action M)} {state : Startup M}
    (ran : Data.Run (Calm true) start actions state) : state.Inv := by
  apply ran.invariant start_inv
  rintro before action after inv ⟨⟨allowed, calm⟩, stepped⟩
  obtain ⟨next, same, kept⟩ := inv.step allowed calm
  rw [stepped] at same
  cases same
  exact kept

/-- However the two threads and the user interleave, while messages are transmitted and no
wait is interrupted: nothing is read or freed after its end, a role is handed out only with a
broker that serves, a refused one leaves nothing behind, a destroyed one has sent all it was
given, and no one waits for ever. -/
theorem client_broker_life {transmit : Bool} (transmits : transmit = true) {actions : List (Action M)}
    {state : Startup M} (ran : Data.Run (Calm transmit) start actions state) :
    (∀ action, state.Allowed action → ¬ state.Interrupts action →
        ∃ after, state.step transmit action = .ok after) ∧
      (state.creator = .returned → state.broker = .serving ∧ state.Live) ∧
      (state.creator = .failed → (state.broker = .ended ∨ state.broker = .absent) ∧ state.Clean) ∧
      (state.creator = .destroyed → state.broker = .ended ∧ state.Clean ∧ state.sent = state.handed) ∧
      (state.creator = .returned ∨ state.creator = .failed ∨ state.creator = .destroyed ∨
        ∃ action, action.IsThread ∧ state.Allowed action ∧ ¬ state.Interrupts action) ∧
      ∀ more last,
        Data.Run (fun before action after => action.IsThread ∧ Step transmit before action after) state more last →
          more.length ≤ 23 + state.pipe.length := by
  subst transmits
  have inv := run_inv ran
  refine ⟨fun action allowed calm => ?_, inv.returned, inv.failed, inv.destroyed, inv.settled,
    fun more last threads => ?_⟩
  · obtain ⟨after, stepped, -⟩ := inv.step allowed calm
    exact ⟨after, stepped⟩
  · have bound := threads.length_le rank
      (fun before action after stepped => step_rank stepped.1 stepped.2.1 stepped.2.2)
    have most := inv.rank_le
    omega

theorem client_broker_life_sample :
    ∃ (actions : List (Action Nat)) (state : Startup Nat), Data.Run (Calm true) start actions state ∧
      state.creator = .destroyed ∧ state.handed = [7] ∧ state.Clean ∧ state.sent = state.handed := by
  have life : ∃ state : Startup Nat, Data.Run (Calm true) start
      ([.creator 0, .creator 0, .broker 0, .creator 0] ++ List.replicate 7 (.broker 0) ++
        [.creator 0, .send 7, .network, .destroy, .creator 0] ++ List.replicate 7 (.broker 0) ++
        [.creator 0, .creator 0]) state ∧ state.creator = .destroyed ∧ state.handed = [7] :=
    Data.Run.of_accepted start _ (by decide +kernel) (by decide +kernel)
  obtain ⟨state, ran, destroyed, handed⟩ := life
  obtain ⟨-, -, -, after, -⟩ := client_broker_life rfl ran
  exact ⟨_, state, ran, destroyed, handed, (after destroyed).2⟩

/-- When the second wait of the creator is interrupted, `zactor_destroy` takes the signal that
the broker is ready for its last one: the creation is refused, its role is freed, and the
broker serves on and follows it. -/
theorem interrupted_wait_dangles :
    ∃ (actions : List (Action Nat)) (state : Startup Nat), Data.Run (Step true) start actions state ∧
      state.creator = .failed ∧ state.broker = .serving ∧ state.Allowed .network ∧
      state.step true .network = .error .danglingPointer := by
  have life : ∃ state : Startup Nat, Data.Run (Step true) start
      ([.creator 0, .creator 0, .broker 0, .creator 0, .creator (-1), .creator 0] ++
        List.replicate 7 (.broker 0) ++ [.creator 0, .creator 0]) state ∧
      (state.creator = .failed ∧ state.broker = .serving ∧ state.Allowed .network ∧
        state.step true .network = .error .danglingPointer) :=
    Data.Run.of_accepted start _ (by decide +kernel) (by
      rintro final member
      cases member
      exact ⟨rfl, rfl, rfl, rfl⟩)
  obtain ⟨state, ran, ends⟩ := life
  exact ⟨_, state, ran, ends⟩

end LibNrm.Startup
