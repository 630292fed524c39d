import LibNrm.Control.Europar21
import Mathlib.Analysis.SpecialFunctions.Log.Basic

namespace LibNrm

/-! The law clamps on the linearized scale, between the images of `min` and `max`,
and brings the result back.  Over the reals, with the exact exponential and
logarithm, both directions are increasing when `a * alpha` is positive, so the
clamp on one scale is a clamp on the other.
-/

/-- The two functions of `libm` without rounding. -/
noncomputable def Libm.real : Libm ℝ := ⟨Real.exp, Real.log⟩

namespace Europar21

section Configured

variable {R : Type} [Field R] [LinearOrder R]

/-- The state of a control made from this configuration, whatever it has done since. -/
def Configured (libm : Libm R) (config : Config R) (data : Europar21 R) : Prop :=
  ∃ creationtime,
    data.toEuropar21Params = (create libm creationtime config).toEuropar21Params

/-- What the daemon does with a control between its creation and its destruction.
The vectors of `getargs` are the control's own, so the caller's writes are steps too. -/
inductive Reached (libm : Libm R) (config : Config R) : Europar21 R → Prop
  | created (creationtime : NrmTime) : Reached libm config (create libm creationtime config)
  | getargs {data : Europar21 R} : Reached libm config data → Reached libm config data.getargs
  | filled {data : Europar21 R} (inputs : List (ControlInput R)) (outputs : List (ControlOutput R)) :
      Reached libm config data →
        Reached libm config { data with inputs := inputs, outputs := outputs }
  | acted {data after : Europar21 R} {now : NrmTime} {inputs : List (ControlInput R)}
      {outputs set : List (ControlOutput R)} {code : Int} : Reached libm config data →
        action libm now data inputs outputs = .ok (code, after, set) →
          Reached libm config after

theorem Configured.action {libm : Libm R} {config : Config R} {data after : Europar21 R}
    (configured : data.Configured libm config) {now : NrmTime} {inputs : List (ControlInput R)}
    {outputs set : List (ControlOutput R)} {code : Int}
    (acted : action libm now data inputs outputs = .ok (code, after, set)) :
    after.Configured libm config := by
  rcases action_cases libm now data inputs outputs with
    ⟨_, other, idle⟩ | ⟨_, _, _, _, _, _, _, acts⟩
  · rw [idle] at acted
    cases acted
    exact configured
  · rw [acts] at acted
    cases acted
    exact configured

theorem Reached.configured {libm : Libm R} {config : Config R} {data : Europar21 R}
    (reached : Reached libm config data) : data.Configured libm config := by
  induction reached with
  | created creationtime => exact ⟨creationtime, rfl⟩
  | getargs _ ih => exact ih
  | filled _ _ _ ih => exact ih
  | acted _ acts ih => exact ih.action acts

theorem law_of_inModel (libm : Libm R) {data : Europar21 R} {prog : R} (pcap : R)
    (inModel : data.InModel prog) :
    (law libm data prog pcap).2 =
      delinearize libm (thresholding (command libm data prog pcap) data.pcapMinL data.pcapMaxL)
        data.a data.b data.alpha data.beta := by
  unfold law
  rw [if_neg inModel]
  rfl

theorem law_of_not_inModel (libm : Libm R) {data : Europar21 R} {prog : R} (pcap : R)
    (outside : ¬ data.InModel prog) : (law libm data prog pcap).2 = data.pcapMax := by
  unfold law
  rw [if_pos (not_not.mp outside)]

omit [Field R] in
theorem thresholding_mem {lower upper : R} (ordered : lower ≤ upper) (val : R) :
    lower ≤ thresholding val lower upper ∧ thresholding val lower upper ≤ upper :=
  ⟨le_max_right _ _, max_le (min_le_right _ _) ordered⟩

omit [Field R] in
theorem thresholding_of_mem {lower upper val : R} (above : lower ≤ val) (below : val ≤ upper) :
    thresholding val lower upper = val := by
  unfold thresholding
  rw [min_eq_left below, max_eq_left above]

theorem action_active (libm : Libm R) (now : NrmTime) {data : Europar21 R}
    (active : data.active = true) {input : ControlInput R} {events : List (Event R)}
    (series : Timeserie.getEvents input.timeserie = some events) (several : 2 ≤ events.length)
    (others : List (ControlInput R)) (out : ControlOutput R) (rest : List (ControlOutput R)) :
    ∃ prog, events2progress events = .ok prog ∧
      action libm now data (input :: others) (out :: rest) =
        .ok (0, { data with prevE := (law libm data prog out.value).1, lastaction := now },
          { out with value := (law libm data prog out.value).2 } :: rest) := by
  obtain ⟨prog, progress⟩ := events2progress_completes several
  have enough : ¬ events.length ≤ 1 := by omega
  refine ⟨prog, progress, ?_⟩
  simp only [action, series, enough, ↓reduceIte, progress, Exec.ok_bind, active]

end Configured

section Scales

variable {a b alpha beta : ℝ}

theorem linearize_neg (value : ℝ) : linearize .real value a b alpha beta < 0 :=
  neg_neg_of_pos (Real.exp_pos _)

theorem linearize_mono (slope : 0 < a * alpha) {lower upper : ℝ} (ordered : lower ≤ upper) :
    linearize .real lower a b alpha beta ≤ linearize .real upper a b alpha beta := by
  have exponent : -alpha * (a * upper + b - beta) ≤ -alpha * (a * lower + b - beta) := by
    nlinarith [mul_le_mul_of_nonneg_left ordered slope.le]
  exact neg_le_neg (Real.exp_le_exp.mpr exponent)

theorem delinearize_linearize (slope : 0 < a * alpha) (value : ℝ) :
    delinearize .real (linearize .real value a b alpha beta) a b alpha beta = value := by
  have aNonzero : a ≠ 0 := left_ne_zero_of_mul slope.ne'
  have alphaNonzero : alpha ≠ 0 := right_ne_zero_of_mul slope.ne'
  simp only [delinearize, linearize, Libm.real, neg_neg, Real.log_exp]
  field_simp
  ring

/-- On the negative half line, the only part the clamp can reach. -/
theorem delinearize_mono (slope : 0 < a * alpha) {lower upper : ℝ} (ordered : lower ≤ upper)
    (negative : upper < 0) :
    delinearize .real lower a b alpha beta ≤ delinearize .real upper a b alpha beta := by
  have aNonzero : a ≠ 0 := left_ne_zero_of_mul slope.ne'
  have alphaNonzero : alpha ≠ 0 := right_ne_zero_of_mul slope.ne'
  have logs : Real.log (-upper) ≤ Real.log (-lower) :=
    Real.log_le_log (neg_pos.mpr negative) (neg_le_neg ordered)
  have difference : delinearize .real upper a b alpha beta -
      delinearize .real lower a b alpha beta =
        (Real.log (-lower) - Real.log (-upper)) / (a * alpha) := by
    simp only [delinearize, Libm.real]
    field_simp
    ring
  have nonneg : 0 ≤ (Real.log (-lower) - Real.log (-upper)) / (a * alpha) :=
    div_nonneg (sub_nonneg.mpr logs) slope.le
  linarith

end Scales

section Range

variable {config : Config ℝ} {data : Europar21 ℝ}

theorem Configured.scale (configured : data.Configured .real config) :
    data.pcapMax = config.max ∧
    (∀ value, linearize .real value data.a data.b data.alpha data.beta =
      linearize .real value config.a config.b config.alpha config.beta) ∧
    (∀ value, delinearize .real value data.a data.b data.alpha data.beta =
      delinearize .real value config.a config.b config.alpha config.beta) ∧
    data.pcapMinL = linearize .real config.min config.a config.b config.alpha config.beta ∧
    data.pcapMaxL = linearize .real config.max config.a config.b config.alpha config.beta := by
  obtain ⟨_, params⟩ := configured
  simp only [params, create, implies_true, and_self]

theorem law_mem_range (range : config.min ≤ config.max) (slope : 0 < config.a * config.alpha)
    (configured : data.Configured .real config) (prog pcap : ℝ) :
    config.min ≤ (law .real data prog pcap).2 ∧ (law .real data prog pcap).2 ≤ config.max := by
  obtain ⟨pcapMax, _, back, minL, maxL⟩ := configured.scale
  by_cases inModel : data.InModel prog
  · rw [law_of_inModel .real pcap inModel, back, minL, maxL]
    have ordered : linearize .real config.min config.a config.b config.alpha config.beta ≤
        linearize .real config.max config.a config.b config.alpha config.beta :=
      linearize_mono slope range
    obtain ⟨above, below⟩ := thresholding_mem ordered (command .real data prog pcap)
    have negative := below.trans_lt (linearize_neg config.max)
    constructor
    · calc config.min
          = delinearize .real (linearize .real config.min config.a config.b config.alpha config.beta)
              config.a config.b config.alpha config.beta := (delinearize_linearize slope _).symm
        _ ≤ _ := delinearize_mono slope above negative
    · calc _
          ≤ delinearize .real (linearize .real config.max config.a config.b config.alpha config.beta)
              config.a config.b config.alpha config.beta :=
            delinearize_mono slope below (linearize_neg config.max)
        _ = config.max := delinearize_linearize slope _
  · rw [law_of_not_inModel .real pcap inModel, pcapMax]
    exact ⟨range, le_rfl⟩

/-- A command that asks for the cap there is, is granted. -/
theorem law_steady (slope : 0 < config.a * config.alpha)
    (configured : data.Configured .real config) {prog pcap : ℝ} (inModel : data.InModel prog)
    (above : config.min ≤ pcap) (below : pcap ≤ config.max)
    (steady : command .real data prog pcap =
      linearize .real pcap data.a data.b data.alpha data.beta) :
    (law .real data prog pcap).2 = pcap := by
  obtain ⟨_, forth, back, minL, maxL⟩ := configured.scale
  rw [law_of_inModel .real pcap inModel, steady, back, forth, minL, maxL,
    thresholding_of_mem (linearize_mono slope above) (linearize_mono slope below)]
  exact delinearize_linearize slope pcap

/-- However a control of this configuration got to its state and whatever the
actuator holds, an active action on two events or more sets its output inside
the configured range and leaves it there when the command asks for no change. -/
theorem action_mem_range (config : Config ℝ) (range : config.min ≤ config.max)
    (slope : 0 < config.a * config.alpha) (active : config.active = true) :
    (∀ value, delinearize .real
      (linearize .real value config.a config.b config.alpha config.beta)
        config.a config.b config.alpha config.beta = value) ∧
    (∀ data, Reached .real config data → data.Configured .real config) ∧
    ∀ (data : Europar21 ℝ) (now : NrmTime) (input : ControlInput ℝ) (others : List (ControlInput ℝ))
      (events : List (Event ℝ)) (out : ControlOutput ℝ) (rest : List (ControlOutput ℝ)),
      data.Configured .real config → Timeserie.getEvents input.timeserie = some events →
      2 ≤ events.length →
      ∃ prog prevE p, events2progress events = .ok prog ∧
        action .real now data (input :: others) (out :: rest) =
          .ok (0, { data with prevE := prevE, lastaction := now }, { out with value := p } :: rest) ∧
        config.min ≤ p ∧ p ≤ config.max ∧
        (data.InModel prog → config.min ≤ out.value → out.value ≤ config.max →
          command .real data prog out.value =
            linearize .real out.value data.a data.b data.alpha data.beta → p = out.value) := by
  refine ⟨delinearize_linearize slope, fun data reached => reached.configured, ?_⟩
  intro data now input others events out rest configured series several
  have activeData : data.active = true := by
    obtain ⟨_, params⟩ := configured
    rw [params]
    exact active
  obtain ⟨prog, progress, acted⟩ := action_active .real now activeData series several others out rest
  obtain ⟨above, below⟩ := law_mem_range range slope configured prog out.value
  exact ⟨prog, _, _, progress, acted, above, below, law_steady slope configured⟩

noncomputable def sampleRange : Config ℝ :=
  { active := true, inputs := [([115], [103])], outputs := [[97]]
    a := 1, b := 0, alpha := 1, beta := 0, kl := 1, t := 1, e := 0, tobj := 1, min := 40, max := 120 }

def sampleProgress : List (Event ℝ) := [⟨⟨0, 0⟩, 1⟩, ⟨⟨1, 0⟩, 1⟩]

theorem sampleRange_action :
    ∃ prog prevE p, events2progress sampleProgress = .ok prog ∧
      action .real ⟨2, 0⟩ (create .real ⟨0, 0⟩ sampleRange)
          [⟨[115], [103], ⟨0, 0⟩, some ⟨[115], .null, sampleProgress, ⟨0, 0⟩⟩⟩] [⟨[97], 300⟩] =
        .ok (0, { create .real ⟨0, 0⟩ sampleRange with prevE := prevE, lastaction := ⟨2, 0⟩ },
          [⟨[97], p⟩]) ∧ 40 ≤ p ∧ p ≤ 120 := by
  have range : sampleRange.min ≤ sampleRange.max := by norm_num [sampleRange]
  have slope : 0 < sampleRange.a * sampleRange.alpha := by norm_num [sampleRange]
  obtain ⟨_, reached, acts⟩ := action_mem_range sampleRange range slope rfl
  obtain ⟨prog, prevE, p, progress, acted, above, below, _⟩ :=
    acts (create .real ⟨0, 0⟩ sampleRange) ⟨2, 0⟩
      ⟨[115], [103], ⟨0, 0⟩, some ⟨[115], .null, sampleProgress, ⟨0, 0⟩⟩⟩ [] sampleProgress
      ⟨[97], 300⟩ [] (reached _ (.created ⟨0, 0⟩)) rfl (Nat.le_refl 2)
  exact ⟨prog, prevE, p, progress, acted, above, below⟩

end Range

end Europar21

end LibNrm
