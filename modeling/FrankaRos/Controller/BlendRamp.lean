/-
# Controller.BlendRamp -- how fast the sent torque moves to the operational space

`osc_blend_alpha` is the weight of the operational-space torque in a control
cycle.  It rises by at most `dt / osc_blend_duration` per cycle and never leaves
`[0, osc_blend_alpha_gain_]`, over every history (`ramps_of_blends`).

What does not hold over every history is the start of an activation.  The weight
and the edge detector `prev_use_osc` survive a deactivation, and only a control
cycle resets them: one in mode `NONE`, or one that finds the edge.  A command that
arrives before the first control cycle of a later activation leaves neither, and
the ramp goes on from the weight the last activation ended with.  `ramps_iff` says
that such a first cycle is the only way to exceed the ramp.
-/
import FrankaRos.Controller.Course
import FrankaRos.Controller.Lifecycle

namespace FrankaRos.Controller

open FrankaRos.Theory

set_option autoImplicit false

set_option linter.unusedSectionVars false

namespace MoveCatersianImpWithGripper

variable {K : Type} [SignedArith K]

/-! ## Control cycles -/

/-- `use_osc_to_send`. -/
def useOsc (s : MoveCatersianImpWithGripper K) : Bool :=
  s.params.catersianImp && s.kinematics.kinInitialized && s.kinematics.oscInitialized

/-- The update blends and sends a torque: it succeeds after the warm-up. -/
def Blends (s : MoveCatersianImpWithGripper K) (given : Cycle K) : Prop :=
  (s.update given).1 = .ok ∧ ¬ (s.prepare given).2.Warming

instance (s : MoveCatersianImpWithGripper K) (given : Cycle K) : Decidable (s.Blends given) :=
  inferInstanceAs (Decidable (_ ∧ _))

/-- Nothing to blend: the operational space is not used, or the mode is `NONE`. -/
def Idle (s : MoveCatersianImpWithGripper K) : Prop :=
  s.useOsc = false ∨ s.gated.task.lastCmd = .none

instance (s : MoveCatersianImpWithGripper K) : Decidable s.Idle :=
  inferInstanceAs (Decidable (_ ∨ _))

/-- What one cycle adds to the weight, `dt / osc_blend_duration`. -/
def increment (s : MoveCatersianImpWithGripper K) (given : Cycle K) : Double K :=
  given.dt / s.params.oscBlendDuration

/-- The controller, and whether its present activation has had a control cycle. -/
structure Ramp (K : Type) where
  controller : MoveCatersianImpWithGripper K
  blended : Bool

/-- The controller's step, observed. -/
def Ramp.step (r : Ramp K) (e : Event K) : Ramp K where
  controller := r.controller.step e
  blended :=
    match e with
    | .activate _ => if r.controller.services.lifecycle = .inactive then false else r.blended
    | .update given =>
        r.blended ||
          decide (r.controller.services.lifecycle = .active ∧ r.controller.Blends given)
    | _ => r.blended

/-- A control cycle of an active controller. -/
def Ramp.Cycles (r : Ramp K) (e : Event K) (given : Cycle K) : Prop :=
  e = .update given ∧ r.controller.services.lifecycle = .active ∧ r.controller.Blends given

/-- Every control cycle blends with a weight in `[0, osc_blend_alpha_gain_]` that
has risen by at most one increment, and the first of an activation with at most
one increment. -/
def Ramp.Ramps (r : Ramp K) (e : Event K) : Prop :=
  ∀ given, r.Cycles e given →
    let before := r.controller.torque.oscBlendAlpha
    let alpha := (r.controller.update given).2.torque.oscBlendAlpha
    (0 ≤ alpha ∧ alpha ≤ r.controller.params.oscBlendAlphaGain) ∧
      alpha ≤ before + r.controller.increment given ∧
      (r.blended = false → alpha ≤ r.controller.increment given)

/-- The first control cycle of an activation starts the ramp over: it has nothing
to blend, or is the first to use the operational space, or the weight left over
(or else the gain) is lost in one increment. -/
def Ramp.StartsOver (r : Ramp K) (e : Event K) : Prop :=
  ∀ given, r.Cycles e given → r.blended = false →
    r.controller.Idle ∨ r.controller.torque.prevUseOsc = false ∨
      r.controller.torque.oscBlendAlpha + r.controller.increment given
        ≤ r.controller.increment given ∨
      r.controller.params.oscBlendAlphaGain ≤ r.controller.increment given

/-! ## What a step does to the weight -/

@[simp] theorem gated_torque (s : MoveCatersianImpWithGripper K) : s.gated.torque = s.torque := by
  obtain ⟨task, refs, gripper, log, frame⟩ := s.gated_frame
  rw [frame]

@[simp] theorem gated_kinematics (s : MoveCatersianImpWithGripper K) :
    s.gated.kinematics = s.kinematics := by
  obtain ⟨task, refs, gripper, log, frame⟩ := s.gated_frame
  rw [frame]

/-- The members the weight of a cycle is computed from. -/
theorem blendAlpha_congr {s s' : MoveCatersianImpWithGripper K} (params : s'.params = s.params)
    (torque : s'.torque = s.torque) (lastCmd : s'.task.lastCmd = s.task.lastCmd) (useOsc : Bool)
    (given : Cycle K) : s'.blendAlpha useOsc given = s.blendAlpha useOsc given := by
  unfold blendAlpha
  rw [params, torque, lastCmd]

theorem warmupCycle_weight {given : Cycle K} {s s' : MoveCatersianImpWithGripper K}
    {r : UpdateResult} (ran : s.warmupCycle given = (r, s')) :
    s'.torque.oscBlendAlpha = s.torque.oscBlendAlpha ∧
      s'.torque.prevUseOsc = s.torque.prevUseOsc := by
  simp only [warmupCycle] at ran
  split at ran
  · obtain ⟨rfl, rfl⟩ := Prod.mk.inj ran
    split <;> exact ⟨rfl, rfl⟩
  · obtain ⟨rfl, rfl⟩ := Prod.mk.inj ran
    split <;> exact ⟨rfl, rfl⟩

/-- The control branch sets the weight exactly when it sends a torque. -/
theorem controlCycle_weight {given : Cycle K} {s s' : MoveCatersianImpWithGripper K}
    {r : UpdateResult} (ran : s.controlCycle given = (r, s')) :
    if r = .ok then
      s'.torque.oscBlendAlpha =
          Double.min (s.blendAlpha s.useOsc given) s.params.oscBlendAlphaGain ∧
        s'.torque.prevUseOsc = s.useOsc
    else s'.torque = s.torque := by
  simp only [controlCycle] at ran
  split at ran
  · obtain ⟨rfl, rfl⟩ := Prod.mk.inj ran
    rfl
  · rename_i map built
    generalize begun : ({ s with
      counters := { s.counters with nTorque := s.counters.nTorque + 1 }
      interfaces := { s.interfaces with cmdMap := some map } } :
        MoveCatersianImpWithGripper K) = t at ran
    have params : t.params = s.params := by rw [← begun]
    have torque : t.torque = s.torque := by rw [← begun]
    have kinematics : t.kinematics = s.kinematics := by rw [← begun]
    have lastCmd : t.task.lastCmd = s.task.lastCmd := by rw [← begun]
    obtain ⟨refs, task, gripper, frame⟩ := phase_frame given t
    have mode := (kept_phase given t).lastCmd
    split at ran
    · rename_i t' threw
      obtain ⟨rfl, rfl⟩ := Prod.mk.inj ran
      rw [threw] at frame
      rw [if_neg (by decide), show t' = _ from frame]
      exact torque
    · rename_i t' phased
      obtain ⟨rfl, rfl⟩ := Prod.mk.inj ran
      rw [phased] at frame mode
      obtain rfl : t' = _ := frame
      have weight : ({ t with refs := refs, task := task, gripper := gripper } :
          MoveCatersianImpWithGripper K).blendAlpha s.useOsc given =
            s.blendAlpha s.useOsc given := by
        apply blendAlpha_congr
        · exact params
        · exact torque
        · exact mode.trans lastCmd
      have osc : (t.params.catersianImp && t.kinematics.kinInitialized &&
          t.kinematics.oscInitialized) = s.useOsc := by
        rw [params, kinematics]
        rfl
      rw [if_pos rfl, ← weight, ← params, ← osc]
      exact ⟨rfl, rfl⟩

theorem appendLogSample_torque (s : MoveCatersianImpWithGripper K) :
    s.appendLogSample.torque = s.torque := by
  obtain ⟨steps, logged⟩ := s.appendLogSample_frame
  rw [logged]

/-- The weight and the edge detector after an update. -/
theorem update_weight (given : Cycle K) (s : MoveCatersianImpWithGripper K) :
    if s.Blends given then
      (s.update given).2.torque.oscBlendAlpha =
          Double.min (s.gated.blendAlpha s.useOsc given) s.params.oscBlendAlphaGain ∧
        (s.update given).2.torque.prevUseOsc = s.useOsc
    else
      (s.update given).2.torque.oscBlendAlpha = s.torque.oscBlendAlpha ∧
        (s.update given).2.torque.prevUseOsc = s.torque.prevUseOsc := by
  obtain ⟨c, i, m, w, u, frame⟩ := s.prepare_frame given
  rcases s.update_cases given with ⟨t, prepared, updated⟩ | ⟨t, r, t', prepared, ran, updated⟩
  · rw [prepared] at frame
    rw [if_neg (by simp [Blends, updated]), updated, show t = _ from frame]
    simp only [gated_torque, and_self]
  · rw [prepared] at frame
    replace frame : t = _ := frame
    have params : t.params = s.params := by rw [frame]; exact gated_params s
    have torque : t.torque = s.torque := by rw [frame]; exact gated_torque s
    have lastCmd : t.task.lastCmd = s.gated.task.lastCmd := by rw [frame]
    have osc : t.useOsc = s.useOsc := by
      rw [useOsc, frame, gated_params, gated_kinematics]
      rfl
    have logged : (if r = .ok then t'.appendLogSample else t').torque = t'.torque := by
      split
      · exact appendLogSample_torque t'
      · rfl
    have blends : s.Blends given ↔ r = .ok ∧ ¬ t.Warming := by
      rw [Blends, updated, prepared]
    rw [updated]
    simp only [logged, blends]
    by_cases warming : t.Warming
    · rw [if_pos warming] at ran
      rw [if_neg (by simp [warming]), ← torque]
      exact warmupCycle_weight ran
    · rw [if_neg warming] at ran
      have sets := controlCycle_weight ran
      rw [osc, params, torque, blendAlpha_congr (params.trans (gated_params s).symm)
        (torque.trans (gated_torque s).symm) lastCmd] at sets
      by_cases ok : r = .ok
      · rw [if_pos ⟨ok, warming⟩]
        rwa [if_pos ok] at sets
      · rw [if_neg (by simp [ok])]
        rw [if_neg ok] at sets
        rw [sets]
        exact ⟨rfl, rfl⟩

/-- Nothing but an update touches the torques. -/
theorem torque_step {s : MoveCatersianImpWithGripper K} {e : Event K}
    (other : ∀ given, e ≠ .update given) : (s.step e).torque = s.torque := by
  cases e with
  | update given => exact absurd rfl (other given)
  | configure given =>
      simp only [step]
      split
      · rcases onConfigure_cases given s with eq | ⟨p, eq⟩ <;> rw [eq] <;> rfl
      · rfl
  | activate given =>
      obtain ⟨refs, kinematics, i, m, warmup, task, gripper, frame, -⟩ := onActivate_frame given s
      simp only [step]
      split
      · rcases activated : s.onActivate given with ⟨result, s'⟩
        rw [activated] at frame
        have kept : s'.torque = s.torque := by rw [show s' = _ from frame]
        cases result <;> exact kept
      · rfl
  | deactivate | cleanup =>
      simp only [step]
      split <;> rfl
  | taskCmd data =>
      simp only [step, onTaskCmd]
      repeat' split
      all_goals rfl
  | gripperTimer moveServer graspServer =>
      simp only [step, gripperTimer]
      repeat' split
      all_goals rfl
  | housekeeping =>
      simp only [step, housekeeping, saveLogToTxt]
      repeat' split
      all_goals rfl
  | graspResponse | graspResult | moveResponse | moveResult =>
      simp only [step]
      split <;> rfl

/-! ## One control cycle -/

/-- What the parameters are assumed to satisfy. -/
structure SoundBlend (p : Scalars K) : Prop where
  nonneg : 0 ≤ p.oscBlendAlphaGain
  le_one : p.oscBlendAlphaGain ≤ Double.lit 1
  duration : Double.lit (1 / 1000000) < p.oscBlendDuration

theorem SoundBlend.increment_nonneg {s : MoveCatersianImpWithGripper K}
    (sound : SoundBlend s.params.toScalars) {given : Cycle K} (forward : 0 ≤ given.period) :
    .fin 0 ≤ s.increment given :=
  Double.fin_div_nonneg forward
    (Double.lt_of_le_of_lt (Double.lit_nonneg (by norm_num)) sound.duration)

/-- The weight a ramp goes on from. -/
def base (s : MoveCatersianImpWithGripper K) : Double K :=
  if s.torque.prevUseOsc then s.torque.oscBlendAlpha else 0

/-- The weight of a cycle before it is capped by its gain. -/
theorem SoundBlend.blendAlpha_eq {s : MoveCatersianImpWithGripper K}
    (sound : SoundBlend s.params.toScalars) (given : Cycle K) :
    s.gated.blendAlpha s.useOsc given =
      if s.Idle then 0 else Double.min (s.base + s.increment given) (Double.lit 1) := by
  have slow : ¬ s.params.oscBlendDuration ≤ Double.lit (1 / 1000000) := by
    intro fast
    exact Double.not_lt_of_le fast sound.duration
  unfold blendAlpha
  rw [gated_params, gated_torque]
  by_cases idle : s.Idle
  · rw [if_pos idle]
    exact if_pos idle
  · have uses : s.useOsc = true := by
      cases off : s.useOsc with
      | false => exact absurd (.inl off) idle
      | true => rfl
    have edge : (if s.useOsc && !s.torque.prevUseOsc then 0 else s.torque.oscBlendAlpha) =
        s.base := by
      rw [uses, base]
      cases s.torque.prevUseOsc <;> rfl
    simp only [edge]
    rw [if_neg idle, if_neg slow]
    exact if_neg idle

/-- The weight is a number in `[0, 1]`. -/
def InRange (s : MoveCatersianImpWithGripper K) : Prop :=
  .fin 0 ≤ s.torque.oscBlendAlpha ∧ s.torque.oscBlendAlpha ≤ Double.lit 1

/-- A ramp goes on from no more than the weight there is. -/
theorem base_fin {s : MoveCatersianImpWithGripper K} {e : K}
    (weight : s.torque.oscBlendAlpha = .fin e) (nonneg : 0 ≤ e) :
    ∃ b, s.base = .fin b ∧ 0 ≤ b ∧ b ≤ e := by
  rw [base, weight]
  split
  · exact ⟨e, rfl, nonneg, le_refl e⟩
  · exact ⟨0, rfl, le_refl 0, nonneg⟩

/-- It is within one increment if it goes on from zero, or if the increment is lost. -/
theorem base_add_le_iff {s : MoveCatersianImpWithGripper K} {given : Cycle K}
    (number : (s.increment given).isNaN = false) :
    s.base + s.increment given ≤ s.increment given ↔ s.torque.prevUseOsc = false ∨
      s.torque.oscBlendAlpha + s.increment given ≤ s.increment given := by
  rw [base]
  cases used : s.torque.prevUseOsc with
  | false =>
      refine iff_of_true ?_ (.inl rfl)
      rw [if_neg (by decide)]
      show Double.fin 0 + _ ≤ _
      rw [Double.fin_zero_add]
      exact Double.le_refl number
  | true =>
      rw [if_pos rfl]
      simp only [Bool.true_eq_false, false_or]

/-- What one control cycle does to a weight in range.  The last part is exact: the
weight is within one increment of zero if and only if the ramp starts over. -/
theorem SoundBlend.cycle {s : MoveCatersianImpWithGripper K}
    (sound : SoundBlend s.params.toScalars) (range : s.InRange) {given : Cycle K}
    (forward : 0 ≤ given.period) {alpha : Double K}
    (sets : alpha =
      Double.min (s.gated.blendAlpha s.useOsc given) s.params.oscBlendAlphaGain) :
    0 ≤ alpha ∧ alpha ≤ s.params.oscBlendAlphaGain ∧
      alpha ≤ s.torque.oscBlendAlpha + s.increment given ∧
      (alpha ≤ s.increment given ↔ s.Idle ∨ s.torque.prevUseOsc = false ∨
        s.torque.oscBlendAlpha + s.increment given ≤ s.increment given ∨
        s.params.oscBlendAlphaGain ≤ s.increment given) := by
  obtain ⟨e, weight⟩ := Double.exists_fin range.1 range.2
  have nonneg : (0 : K) ≤ e := by simpa [weight] using range.1
  have step_nonneg := sound.increment_nonneg forward
  have step_number := (Double.le_number step_nonneg).2
  have gain_number := (Double.le_number sound.nonneg).2
  have grows : .fin 0 ≤ s.torque.oscBlendAlpha + s.increment given := by
    rw [weight]
    exact Double.le_trans (Double.fin_le_fin.2 nonneg) (Double.fin_le_fin_add e step_nonneg)
  have below : Double.min 0 s.params.oscBlendAlphaGain ≤ s.params.oscBlendAlphaGain :=
    (Double.min_le_iff rfl gain_number).2 (.inr (Double.le_refl gain_number))
  rw [sets, sound.blendAlpha_eq given]
  by_cases idle : s.Idle
  · rw [if_pos idle]
    refine ⟨Double.le_min (Double.le_refl rfl) sound.nonneg, below, ?_, ?_⟩
    · exact (Double.min_le_iff rfl gain_number).2 (.inl grows)
    · exact ⟨fun _ => .inl idle, fun _ => (Double.min_le_iff rfl gain_number).2 (.inl step_nonneg)⟩
  · rw [if_neg idle]
    obtain ⟨b, base, b_nonneg, b_le⟩ := base_fin weight nonneg
    have sum : .fin 0 ≤ s.base + s.increment given := by
      rw [base]
      exact Double.le_trans (Double.fin_le_fin.2 b_nonneg) (Double.fin_le_fin_add b step_nonneg)
    have sum_number := (Double.le_number sum).2
    have ramp : .fin 0 ≤ Double.min (s.base + s.increment given) (Double.lit 1) :=
      Double.le_min sum (Double.lit_nonneg (by norm_num))
    have ramp_number := (Double.le_number ramp).2
    have one_number : (Double.lit 1 : Double K).isNaN = false := rfl
    refine ⟨Double.le_min ramp sound.nonneg, ?_, ?_, ?_⟩
    · exact (Double.min_le_iff ramp_number gain_number).2 (.inr (Double.le_refl gain_number))
    · apply (Double.min_le_iff ramp_number gain_number).2
      refine .inl ((Double.min_le_iff sum_number one_number).2 (.inl ?_))
      rw [base, weight]
      exact Double.fin_add_le_fin_add b_le step_number
    · rw [Double.min_le_iff ramp_number gain_number, Double.min_le_iff sum_number one_number,
        base_add_le_iff step_number]
      have capped : Double.lit 1 ≤ s.increment given →
          s.params.oscBlendAlphaGain ≤ s.increment given := Double.le_trans sound.le_one
      constructor
      · rintro (((first | lost) | one) | gain)
        · exact .inr (.inl first)
        · exact .inr (.inr (.inl lost))
        · exact .inr (.inr (.inr (capped one)))
        · exact .inr (.inr (.inr gain))
      · rintro (stays | first | lost | gain)
        · exact absurd stays idle
        · exact .inl (.inl (.inl first))
        · exact .inl (.inl (.inr lost))
        · exact .inr gain

/-! ## Runs -/

/-- A configured controller has scalar parameters of a kind. -/
def Configured (A : Scalars K → Prop) (s : MoveCatersianImpWithGripper K) : Prop :=
  s.services.lifecycle = .inactive ∨ s.services.lifecycle = .active → A s.params.toScalars

theorem ofDeclared_toScalars {scalars : Scalars K} {given : Declared K} {p : Params K}
    (accepted : Params.ofDeclared scalars given = some p) : p.toScalars = scalars := by
  simp only [Params.ofDeclared, Option.bind_eq_bind, Option.bind_eq_some_iff] at accepted
  obtain ⟨_, -, _, -, _, -, _, -, _, -, _, -, _, -, same⟩ := accepted
  rw [← Option.some.inj same]

theorem onConfigure_scalars {given : Configuration K} {s : MoveCatersianImpWithGripper K}
    (success : (s.onConfigure given).1 = .success) :
    (s.onConfigure given).2.params.toScalars = given.scalars := by
  unfold onConfigure at success ⊢
  split at success
  · cases success
  · rename_i set
    rw [if_neg set]
    split at success
    · cases success
    · rename_i p accepted
      split at success
      · rename_i found
        simp only [found, if_true]
        exact ofDeclared_toScalars accepted
      · cases success

/-- A transition that fails leaves the controller finalized. -/
theorem configured_settle {A : Scalars K → Prop} {target : Lifecycle}
    {out : CallbackReturn × MoveCatersianImpWithGripper K}
    (success : out.1 = .success → A out.2.params.toScalars) :
    Configured A (settle target out) := by
  obtain ⟨result, s'⟩ := out
  cases result with
  | success => exact fun _ => success rfl
  | error => exact fun live => by rcases live with live | live <;> cases live

theorem configured_step {A : Scalars K → Prop} {s : MoveCatersianImpWithGripper K} {e : Event K}
    (admitted : ∀ given, e = .configure given → A given.scalars) (configured : Configured A s) :
    Configured A (s.step e) := by
  have quiet : e.IsCallback → Quiet s (s.step e) := quiet_step
  cases e with
  | configure given =>
      simp only [step]
      split
      · apply configured_settle
        intro success
        rw [onConfigure_scalars success]
        exact admitted given rfl
      · exact configured
  | activate given =>
      obtain ⟨refs, kinematics, i, m, warmup, task, gripper, frame, -⟩ := onActivate_frame given s
      simp only [step]
      split
      · rename_i inactive
        apply configured_settle
        intro _
        rw [frame]
        exact configured (.inl inactive)
      · exact configured
  | deactivate =>
      simp only [step]
      split
      · rename_i active
        exact fun _ => configured (.inr active)
      · exact configured
  | cleanup =>
      simp only [step]
      split
      · exact fun live => by rcases live with live | live <;> cases live
      · exact configured
  | update given =>
      simp only [step]
      split
      · rename_i active
        have kept := update_kept given s
        rw [Configured, kept.params, gated_params]
        exact fun _ => configured (.inr active)
      · exact configured
  | taskCmd | gripperTimer | housekeeping | graspResponse | graspResult | moveResponse |
    moveResult =>
      have quiet := quiet trivial
      rw [Configured, quiet.services, quiet.params]
      exact configured

/-- What holds between the events of a run. -/
structure Ramp.Sound (r : Ramp K) : Prop where
  configured : Configured SoundBlend r.controller
  range : r.controller.InRange

/-- The events a ramp is about: sound parameters and non-negative periods. -/
def Event.SoundRamp : Event K → Prop
  | .configure given => SoundBlend given.scalars
  | .update given => 0 ≤ given.period
  | _ => True

theorem Ramp.Sound.step {r : Ramp K} {e : Event K} (sound : r.Sound) (event : e.SoundRamp) :
    (r.step e).Sound := by
  have scalars : ∀ given, e = .configure given → SoundBlend given.scalars := by
    rintro given rfl
    exact event
  refine ⟨configured_step scalars sound.configured, ?_⟩
  show (r.controller.step e).InRange
  by_cases update : ∃ given, e = .update given
  · obtain ⟨given, rfl⟩ := update
    simp only [MoveCatersianImpWithGripper.step]
    split
    · rename_i active
      have blend := sound.configured (.inr active)
      have weight := update_weight given r.controller
      by_cases blends : r.controller.Blends given
      · rw [if_pos blends] at weight
        obtain ⟨nonneg, le_gain, -⟩ := blend.cycle sound.range event weight.1
        exact ⟨nonneg, Double.le_trans le_gain blend.le_one⟩
      · rw [if_neg blends] at weight
        rw [InRange, weight.1]
        exact sound.range
    · exact sound.range
  · rw [InRange, torque_step fun given same => update ⟨given, same⟩]
    exact sound.range

/-- In a sound state, a control cycle keeps to the ramp if and only if it starts
the ramp over where it has to. -/
theorem Ramp.Sound.ramps_iff {r : Ramp K} {e : Event K} (sound : r.Sound)
    (event : e.SoundRamp) : r.Ramps e ↔ r.StartsOver e := by
  constructor
  · rintro ramps given ⟨rfl, active, blends⟩ first
    have weight := update_weight given r.controller
    rw [if_pos blends] at weight
    obtain ⟨-, -, -, start⟩ :=
      (sound.configured (.inr active)).cycle sound.range event weight.1
    exact start.1 ((ramps given ⟨rfl, active, blends⟩).2.2 first)
  · rintro starts given ⟨rfl, active, blends⟩
    have weight := update_weight given r.controller
    rw [if_pos blends] at weight
    obtain ⟨nonneg, le_gain, rises, start⟩ :=
      (sound.configured (.inr active)).cycle sound.range event weight.1
    exact ⟨⟨nonneg, le_gain⟩, rises,
      fun first => start.2 (starts given ⟨rfl, active, blends⟩ first)⟩

/-- The controller before its first event. -/
def Ramp.constructed (p : Params K) : Ramp K :=
  ⟨MoveCatersianImpWithGripper.constructed p, false⟩

theorem Ramp.sound_constructed (p : Params K) : (Ramp.constructed p).Sound := by
  refine ⟨fun live => ?_, Double.le_refl rfl, Double.lit_nonneg (by norm_num)⟩
  rcases live with live | live <;> cases live

/-- **The ramp, exactly.**  In a run with sound parameters and non-negative periods,
every control cycle blends with a weight within `[0, osc_blend_alpha_gain_]` that
has risen by at most one increment, in every activation from zero, if and only if
the first control cycle of every activation starts the ramp over. -/
theorem along_ramps_iff (p : Params K) {es : List (Event K)} (sound : ∀ e ∈ es, e.SoundRamp) :
    Along Ramp.step Ramp.Ramps (Ramp.constructed p) es ↔
      Along Ramp.step Ramp.StartsOver (Ramp.constructed p) es :=
  along_congr Ramp.step (fun _ _ event _ sound => sound.step event)
    (fun _ _ event sound => sound.ramps_iff event) sound (Ramp.sound_constructed p)

/-! ## A concrete robot -/

/-- The concrete robot with the operational space blended in, after a warm-up of
one second. -/
def fr3Blending : Configuration ℚ :=
  fr3Configuration { fr3Scalars with
    catersianImp := true, oscBlendAlphaGain := Double.lit 1, warmupSeconds := Double.lit 1 }

/-- An activation, its warm-up, and a command before the first control cycle. -/
def fr3Ramp (periods : List ℚ) : List (Event ℚ) :=
  [.activate (fr3Activation 0), .update (fr3Cycle 1 0 1), .taskCmd "move_pose_1"] ++
    periods.map fun period => .update (fr3Cycle period 0 1)

/-- In a second activation the weight of the first is back in one cycle of a
millisecond, where the ramp allows `1/100`. -/
theorem not_along_ramps_reactivated :
    ¬ Along Ramp.step Ramp.Ramps (Ramp.constructed fr3Params)
      (.configure fr3Blending :: fr3Ramp [1 / 20, 1 / 20] ++ .deactivate :: fr3Ramp [1 / 1000]) := by
  intro ramps
  have last := ((along_iff_split Ramp.step _ _ _).1 ramps
    (.configure fr3Blending :: fr3Ramp [1 / 20, 1 / 20] ++ .deactivate :: fr3Ramp [])
    (.update (fr3Cycle (1 / 1000) 0 1)) [] rfl) (fr3Cycle (1 / 1000) 0 1)
    ⟨rfl, by decide +kernel, by decide +kernel⟩
  exact absurd (last.2.2 (by decide +kernel)) (by decide +kernel)

/-- A first activation starts from zero. -/
theorem along_ramps_first :
    Along Ramp.step Ramp.Ramps (Ramp.constructed fr3Params)
      (.configure fr3Blending :: fr3Ramp [1 / 20]) := by
  refine (along_ramps_iff fr3Params fun e member => ?_).2 ?_
  · simp only [fr3Ramp, List.map_cons, List.map_nil, List.cons_append, List.nil_append,
      List.mem_cons, List.not_mem_nil, or_false] at member
    rcases member with rfl | rfl | rfl | rfl | rfl
    · exact ⟨by decide +kernel, by decide +kernel, by decide +kernel⟩
    · trivial
    · exact (by decide +kernel : (0 : ℚ) ≤ 1)
    · trivial
    · exact (by decide +kernel : (0 : ℚ) ≤ 1 / 20)
  · refine ⟨fun given cycles => ?_, fun given cycles => ?_, fun given cycles first => .inr (.inl ?_),
      fun given cycles => ?_, fun given cycles first => .inr (.inl ?_), trivial⟩
    · cases cycles.1
    · cases cycles.1
    · decide +kernel
    · cases cycles.1
    · decide +kernel

end MoveCatersianImpWithGripper

end FrankaRos.Controller
