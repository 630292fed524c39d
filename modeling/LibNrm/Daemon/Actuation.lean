import LibNrm.Actuation
import LibNrm.Daemon.Listing
import LibNrm.Daemon.Ownership
import Mathlib.Data.List.Pairwise

namespace LibNrm

namespace Actuator

def Admits (actuator : Actuator) (value : ℚ) : Prop :=
  match actuator.u with
  | .choices choices => value ∈ choices
  | .limits lower upper => lower ≤ value ∧ value ≤ upper

theorem Consistent.validateValue_iff {actuator : Actuator} (consistent : actuator.Consistent)
    (value : ℚ) :
    ∃ code, actuator.validateValue value = .ok code ∧ (code = 0 ↔ actuator.Admits value) := by
  cases consistent with
  | discrete choices type ops u =>
      simp only [validateValue, ops, discreteValidateValue, Actuator.choices, u, Exec.ok_bind, Admits]
      by_cases listed : value ∈ choices
      · exact ⟨0, by simp only [listed, ↓reduceIte], by simp [listed]⟩
      · exact ⟨-nrmEdom, by simp only [listed, ↓reduceIte], by simp [listed, nrmEdom]⟩
  | continuous lower upper type ops u =>
      simp only [validateValue, ops, continuousValidateValue, Actuator.limits, u, Exec.ok_bind, Admits]
      by_cases outside : value < lower ∨ value > upper
      · refine ⟨-nrmEdom, by simp only [outside, ↓reduceIte], ?_⟩
        have refused : ¬ (lower ≤ value ∧ value ≤ upper) := by
          rintro ⟨above, below⟩
          rcases outside with low | high
          · exact absurd above (not_le.mpr low)
          · exact absurd below (not_le.mpr high)
        simp [refused, nrmEdom]
      · refine ⟨0, by simp only [outside, ↓reduceIte], ?_⟩
        rw [not_or, not_lt, not_lt] at outside
        simp [outside]

/-- The loop stops changing its mind once it has met the value itself. -/
theorem nearest_of_mem {value : ℚ} {choices : List ℚ} {best dist : ℚ} (listed : value ∈ choices)
    (positive : 0 < dist) : nearest value choices best dist = value := by
  induction choices generalizing best dist with
  | nil => cases listed
  | cons choice rest ih =>
      simp only [nearest]
      by_cases here : value = choice
      · subst here
        simp only [sub_self, abs_zero, positive, ↓reduceIte]
        exact nearest_eq fun other _ => not_lt.mpr (abs_nonneg _)
      · have later : value ∈ rest := (List.mem_cons.mp listed).resolve_left here
        split
        · exact ih later (abs_pos.mpr (sub_ne_zero.mpr here))
        · exact ih later positive

theorem Canonical.correctedValue_of_admits {actuator : Actuator} (canonical : actuator.Canonical)
    {value : ℚ} (admits : actuator.Admits value) : actuator.correctedValue value = .ok (0, value) := by
  have sorted := canonical.sorted
  cases canonical.consistent with
  | discrete choices type ops u =>
      simp only [Admits, u] at admits
      have order := sorted choices u
      have nonempty : choices ≠ [] := List.ne_nil_of_mem admits
      have first : ¬ value < choices.head nonempty := not_lt.mpr (order.rel_head admits)
      have last : ¬ value > choices.getLast nonempty := not_lt.mpr (order.rel_getLast admits)
      simp only [correctedValue, ops, discreteCorrectedValue, Actuator.choices, u, Exec.ok_bind,
        List.head?_eq_some_head nonempty, List.getLast?_eq_some_getLast nonempty, first, last,
        ↓reduceIte, nearest_of_mem admits dblMax_pos]
  | continuous lower upper type ops u =>
      simp only [Admits, u] at admits
      simp only [correctedValue, ops, continuousCorrectedValue, Actuator.limits, u, Exec.ok_bind,
        not_lt.mpr admits.1, gt_iff_lt, not_lt.mpr admits.2, ↓reduceIte]

end Actuator

namespace Nrmd

variable {libm : Libm ℚ} {accept : Daemon → Actuator → ℚ → Int}

/-- What a client that lists the objects of a type can be given. -/
def Listed (libm : Libm ℚ) (accept : Daemon → Actuator → ℚ → Int) (server : Server Daemon)
    (target : TargetType) (objects : List (Option Object)) : Prop :=
  ∃ clientid frame env sent outcome reply, (Call.list target).request = .ok (some sent) ∧
    server.roleCallback (guarded libm accept) ⟨clientid, some sent, frame, env⟩ = .ok outcome ∧
    .send clientid reply ∈ outcome.emitted ∧ (Call.list target).finish reply = .ok (.listed objects)

theorem listed_iff {server : Server Daemon} (sound : server.state.Sound) {target : TargetType}
    {objects : List (Option Object)} :
    Listed libm accept server target objects ↔
      objects = (server.state.objects target).map some := by
  constructor
  · rintro ⟨clientid, frame, env, sent, outcome, reply, requested, handled, replied, finished⟩
    obtain ⟨message, answer, building, answered, read⟩ :=
      roleCallback_lists libm accept sound target clientid frame env
    simp only [Call.request, building, Exec.ok_bind, Exec.pure_eq_ok, Except.ok.injEq,
      Option.some.injEq] at requested
    subst requested
    cases answered.symm.trans handled
    simp only [List.mem_singleton, Emit.send.injEq, true_and] at replied
    subst replied
    simp only [Call.finish, read, List.filter_true, Except.ok.injEq, Answer.listed.injEq] at finished
    exact finished.symm
  · rintro rfl
    obtain ⟨message, answer, building, answered, read⟩ :=
      roleCallback_lists libm accept sound target [] [] noEnv
    refine ⟨[], [], noEnv, message, _, answer, ?_, answered, List.mem_cons_self, ?_⟩
    · simp only [Call.request, building, Exec.ok_bind, Exec.pure_eq_ok]
    · simp only [Call.finish, read, List.filter_true]

theorem Listed.actuator_mem_iff {server : Server Daemon} {objects : List (Option Object)}
    (obtained : Listed libm accept server .actuator objects) (sound : server.state.Sound)
    {a : Actuator} :
    some (.actuator a) ∈ objects ↔ server.state.actuators.lookup a.uuid = some a := by
  rw [listed_iff sound] at obtained
  subst obtained
  rw [← sound.actuator_mem_objects]
  simp

theorem run_lookup {start final : Server Daemon} {ops : List Op}
    (ran : Data.run (next libm accept) start ops = .ok final) {uuid : NrmString} {a : Actuator}
    (found : start.state.actuators.lookup uuid = some a) :
    ∃ value, final.state.actuators.lookup uuid = some (a.setValue value) := by
  refine Data.run_history (motive := fun _ server =>
    ∃ value, server.state.actuators.lookup uuid = some (a.setValue value)) ran ⟨a.value, found⟩ ?_
  rintro _ middle op after _ ⟨value, held⟩ stepped
  obtain ⟨outcome, served, rfl⟩ := next_eq_ok stepped
  obtain ⟨changed, reached, _⟩ := (serve_effect served).lookup held
  exact ⟨changed, reached⟩

def Sparing (libm : Libm ℚ) (accept : Daemon → Actuator → ℚ → Int) (uuid : NrmString)
    (before : Server Daemon) (op : Op) (after : Server Daemon) : Prop :=
  ∃ outcome, serve libm accept before op = .ok outcome ∧ after = outcome.server ∧
    Server.Spares uuid outcome.emitted

theorem Sparing.next {uuid : NrmString} {before after : Server Daemon} {op : Op}
    (spared : Sparing libm accept uuid before op after) :
    Nrmd.next libm accept before op = .ok after := by
  obtain ⟨outcome, served, rfl, _⟩ := spared
  simp only [Nrmd.next, served, Exec.ok_bind, Exec.pure_eq_ok]

theorem spared_lookup {start final : Server Daemon} {uuid : NrmString} {ops : List Op}
    (sound : start.state.Sound) (ran : Data.Run (Sparing libm accept uuid) start ops final)
    {a : Actuator} (found : start.state.actuators.lookup uuid = some a) :
    final.state.Sound ∧ final.state.actuators.lookup uuid = some a := by
  refine ran.invariant (motive := fun server =>
    server.state.Sound ∧ server.state.actuators.lookup uuid = some a) ⟨sound, found⟩ ?_
  rintro before op after ⟨sound, held⟩ spared
  refine ⟨next_sound sound spared.next, ?_⟩
  obtain ⟨outcome, served, rfl, spares⟩ := spared
  obtain ⟨value, reached, kept⟩ := (serve_effect served).lookup held
  rw [reached, kept spares]
  rfl

theorem roleCallback_admitted (libm : Libm ℚ) {server : Server Daemon} (sound : server.state.Sound)
    {uuid owner : NrmString} {a : Actuator} (found : server.state.actuators.lookup uuid = some a)
    (owned : a.clientid = some owner) {value : ℚ} (admits : a.Admits value)
    (accepted : accept server.user a value = 0) (clientid : NrmString) (frame : List UInt8)
    (env : TickEnv) :
    server.roleCallback (guarded libm accept)
        ⟨clientid, some (Server.command uuid value), frame, env⟩ =
      .ok ⟨0, { server with state := server.state.setValue uuid value },
        [.send owner (Server.command uuid value), .send clientid (Msg.fill .ack)]⟩ := by
  obtain ⟨registry, stored⟩ := sound.registry
  have canonical := sound.canonical.actuators.lookup found
  have named : uuid = a.uuid := sound.wellKeyed.actuators.named.lookup found
  have uuidFree : stringFromchar uuid = uuid := stringFromchar_of_nulFree (named ▸ canonical.uuid)
  have ownerFree : stringFromchar owner = owner :=
    stringFromchar_of_nulFree (canonical.clientid owner owned)
  rw [Server.roleCallback_actuate (guarded libm accept) server rfl]
  simp only [uuidFree]
  rcases server.actuateCallback_spec (guarded libm accept) rfl registry stored clientid
      ⟨uuid, value⟩ with
    ⟨refused, _⟩ | ⟨other, code, corrected, receiver, same, _, computed, belongs, carried⟩
  · simp only [uuidFree] at refused
    exact absurd accepted (refused a found)
  · simp only [uuidFree] at same
    cases same.symm.trans found
    cases computed.symm.trans (canonical.correctedValue_of_admits admits)
    cases belongs.symm.trans owned
    simp only [uuidFree, ownerFree, Registry.setValue_state, ← stored] at carried
    exact carried

/-- A client asks for a value of an actuator that it once listed.  If the actuator
does not take the value, the call fails and sends nothing.  If it does and the
policy of the daemon accepts, the daemon stores exactly this value and sends it to
the owner, and until the next actuation every listing reports it. -/
theorem actuation_read_back {earlier server : Server Daemon} {ops : List Op}
    {listed : List (Option Object)} {copy : Actuator} (reachable : Reachable libm accept earlier)
    (obtained : Listed libm accept earlier .actuator listed)
    (held : some (.actuator copy) ∈ listed)
    (ran : Data.run (next libm accept) earlier ops = .ok server) (value : ℚ) :
    ∃ a owner, server.state.actuators.lookup copy.uuid = some a ∧ a = copy.setValue a.value ∧
      a.clientid = some owner ∧
      (¬ a.Admits value → ∃ code, copy.validateValue value = .ok code ∧ code ≠ 0 ∧
        (Call.actuate copy value).request = .ok none) ∧
      (a.Admits value → ∃ sent, (Call.actuate copy value).request = .ok (some sent) ∧
        (accept server.user a value = 0 → ∀ clientid frame env, ∃ after,
          server.roleCallback (guarded libm accept) ⟨clientid, some sent, frame, env⟩ =
            .ok ⟨0, after, [.send owner (Server.command copy.uuid value),
              .send clientid (Msg.fill .ack)]⟩ ∧
          (Call.actuate copy value).finish (Msg.fill .ack) = .ok .done ∧
          after.state.actuators.lookup copy.uuid = some (a.setValue value) ∧
          ∀ later last, Data.Run (Sparing libm accept copy.uuid) after later last →
            (∃ objects, Listed libm accept last .actuator objects) ∧
            ∀ objects, Listed libm accept last .actuator objects →
              some (.actuator (a.setValue value)) ∈ objects ∧
              ∀ other, some (.actuator other) ∈ objects → other.uuid = copy.uuid →
                other.value = value)) := by
  have sound := (reachable.run ran).sound
  have original : earlier.state.actuators.lookup copy.uuid = some copy :=
    (obtained.actuator_mem_iff reachable.sound).mp held
  obtain ⟨current, found⟩ := run_lookup ran original
  obtain ⟨registry, stored⟩ := sound.registry
  obtain ⟨owner, owned⟩ := (registry.ready_of_lookup (stored ▸ found)).owned
  have consistent := (reachable.sound.canonical.actuators.lookup original).consistent
  obtain ⟨code, validated, valid⟩ := consistent.validateValue_iff value
  refine ⟨copy.setValue current, owner, found, rfl, owned, ?_, ?_⟩
  · intro refused
    have failed : code ≠ 0 := fun ok => refused (valid.mp ok)
    refine ⟨code, validated, failed, ?_⟩
    simp only [Call.request, validated, Exec.ok_bind, ne_eq, failed, not_false_eq_true, ↓reduceIte,
      Exec.pure_eq_ok]
  · intro admits
    have ok : code = 0 := valid.mpr admits
    refine ⟨Server.command copy.uuid value, ?_, ?_⟩
    · simp only [Call.request, validated, Exec.ok_bind, ok, ne_eq, not_true_eq_false, ↓reduceIte,
        Exec.pure_eq_ok]
      rfl
    intro accepted clientid frame env
    have handled := roleCallback_admitted libm sound found owned admits accepted clientid frame env
    have kept : (server.state.setValue copy.uuid value).actuators.lookup copy.uuid =
        some ((copy.setValue current).setValue value) := by
      simp [State.lookup_setValue, found]
    refine ⟨_, handled, rfl, kept, ?_⟩
    intro later last continued
    obtain ⟨lastSound, lastFound⟩ := spared_lookup (sound.setValue copy.uuid value) continued kept
    refine ⟨⟨_, (listed_iff lastSound).mpr rfl⟩, ?_⟩
    intro objects obtained
    constructor
    · exact (obtained.actuator_mem_iff lastSound).mpr lastFound
    · intro other member same
      have present := (obtained.actuator_mem_iff lastSound).mp member
      rw [same, lastFound] at present
      cases present
      rfl

def sampleOps : List Op :=
  [.message (inboundAdd [65] ⟨3, some (.actuator ⟨[97], none, 0, 0, some (.discrete [2, 1])⟩)⟩)]

/-- A client that listed `a` asks for 2 and then reads 2. -/
theorem actuation_read_back_sample :
    ∃ server copy sent after objects,
      Data.run (next ⟨fun _ => 1, fun _ => 0⟩ actuateCallback) fresh sampleOps = .ok server ∧
      copy.uuid = [97] ∧ (Call.actuate copy 2).request = .ok (some sent) ∧
      server.roleCallback (guarded ⟨fun _ => 1, fun _ => 0⟩ actuateCallback)
        ⟨[66], some sent, [], noEnv⟩ =
          .ok ⟨0, after, [.send [65] (Server.command [97] 2), .send [66] (Msg.fill .ack)]⟩ ∧
      Listed ⟨fun _ => 1, fun _ => 0⟩ actuateCallback after .actuator objects ∧
      some (.actuator (copy.setValue 2)) ∈ objects := by
  obtain ⟨server, copy, ran, found, named, choices, client⟩ : ∃ server copy,
      Data.run (next ⟨fun _ => 1, fun _ => 0⟩ actuateCallback) fresh sampleOps = .ok server ∧
        server.state.actuators.lookup [97] = some copy ∧ copy.uuid = [97] ∧
        copy.u = .choices [1, 2] ∧ copy.clientid = some [65] :=
    ⟨_, _, rfl, rfl, rfl, by decide +kernel, rfl⟩
  have reachable : Reachable ⟨fun _ => 1, fun _ => 0⟩ actuateCallback server :=
    ⟨[], fresh, sampleOps, rfl, ran⟩
  have listed : Listed ⟨fun _ => 1, fun _ => 0⟩ actuateCallback server .actuator
      ((server.state.objects .actuator).map some) := (listed_iff reachable.sound).mpr rfl
  have held : some (Object.actuator copy) ∈ (server.state.objects .actuator).map some :=
    (listed.actuator_mem_iff reachable.sound).mpr (named ▸ found)
  have stays : Data.run (next ⟨fun _ => 1, fun _ => 0⟩ actuateCallback) server [] = .ok server := rfl
  obtain ⟨a, owner, current, same, owned, _, carried⟩ :=
    actuation_read_back reachable listed held stays 2
  rw [named, found] at current
  cases current
  cases owned.symm.trans client
  have admits : copy.Admits 2 := by
    simp only [Actuator.Admits, choices]
    decide +kernel
  obtain ⟨sent, requested, accepted⟩ := carried admits
  obtain ⟨after, handled, _, _, reports⟩ := accepted rfl [66] [] noEnv
  obtain ⟨⟨objects, lists⟩, holds⟩ := reports [] after (.nil after)
  rw [named] at handled
  exact ⟨server, copy, sent, after, objects, ran, named, requested, handled, lists,
    (holds objects lists).1⟩

/-- A request that the policy accepts does what `nrm_server_actuate` does, and is
acknowledged; any other is only acknowledged. -/
theorem actuation_paths_agree {server : Server Daemon} (reachable : Reachable libm accept server)
    (clientid : NrmString) (msg : MsgActuate) :
    (∀ a, server.state.actuators.lookup (stringFromchar msg.uuid) = some a →
      accept server.user a msg.value = 0 → ∃ after owner value, a.clientid = some owner ∧
        server.actuate (stringFromchar msg.uuid) msg.value =
          .ok (after, [.send owner (Server.command (stringFromchar msg.uuid) value)]) ∧
        server.actuateCallback (guarded libm accept) clientid (some msg) =
          .ok ⟨0, after, [.send owner (Server.command (stringFromchar msg.uuid) value),
            .send clientid (Msg.fill .ack)]⟩) ∧
    ((server.state.actuators.lookup (stringFromchar msg.uuid) = none ∨
        ∃ a, server.state.actuators.lookup (stringFromchar msg.uuid) = some a ∧
          accept server.user a msg.value ≠ 0) →
      server.actuateCallback (guarded libm accept) clientid (some msg) =
        .ok ⟨0, server, [.send clientid (Msg.fill .ack)]⟩) ∧
    (∀ uuid value, server.state.actuators.lookup uuid = none →
      server.actuate uuid value = .ok (server, [])) := by
  have sound := reachable.sound
  obtain ⟨registry, stored⟩ := sound.registry
  refine ⟨?_, ?_, ?_⟩
  · intro a found accepted
    rcases server.actuateCallback_spec (guarded libm accept) rfl registry stored clientid msg with
      ⟨refused, _⟩ | ⟨_, _, corrected, owner, same, _, computed, owned, handled⟩
    · exact absurd accepted (refused a found)
    · cases same.symm.trans found
      rcases server.actuate_spec registry stored (stringFromchar msg.uuid) msg.value with
        ⟨absent, _⟩ | ⟨_, _, _, _, also, recomputed, belongs, actuated⟩
      · cases absent.symm.trans found
      · cases also.symm.trans found
        cases recomputed.symm.trans computed
        cases belongs.symm.trans owned
        have ownerFree : stringFromchar owner = owner :=
          stringFromchar_of_nulFree ((sound.canonical.actuators.lookup found).clientid owner owned)
        rw [ownerFree] at actuated handled
        exact ⟨_, owner, corrected, owned, actuated, handled⟩
  · intro without
    rcases server.actuateCallback_spec (guarded libm accept) rfl registry stored clientid msg with
      ⟨_, ignored⟩ | ⟨_, _, _, _, found, accepted, _, _, _⟩
    · exact ignored
    · rcases without with absent | ⟨a, same, refused⟩
      · cases absent.symm.trans found
      · cases same.symm.trans found
        exact absurd accepted refused
  · intro uuid value absent
    rcases server.actuate_spec registry stored uuid value with
      ⟨_, ignored⟩ | ⟨_, _, _, _, found, _⟩
    · exact ignored
    · cases absent.symm.trans found

/-- A request for 5 is corrected to 2 on both paths. -/
theorem actuation_paths_agree_sample :
    ∃ server after emitted,
      Data.run (next ⟨fun _ => 1, fun _ => 0⟩ actuateCallback) fresh sampleOps = .ok server ∧
      server.actuate [97] 5 = .ok (after, emitted) ∧
      server.actuateCallback (guarded ⟨fun _ => 1, fun _ => 0⟩ actuateCallback) [66]
        (some ⟨[97], 5⟩) = .ok ⟨0, after, emitted ++ [.send [66] (Msg.fill .ack)]⟩ := by
  obtain ⟨server, a, ran, found⟩ : ∃ server a,
      Data.run (next ⟨fun _ => 1, fun _ => 0⟩ actuateCallback) fresh sampleOps = .ok server ∧
        server.state.actuators.lookup [97] = some a := ⟨_, _, rfl, rfl⟩
  obtain ⟨after, owner, value, _, actuated, handled⟩ :=
    (actuation_paths_agree ⟨[], fresh, sampleOps, rfl, ran⟩ [66] ⟨[97], 5⟩).1 a found rfl
  exact ⟨server, after, _, ran, actuated, handled⟩

end Nrmd

end LibNrm
