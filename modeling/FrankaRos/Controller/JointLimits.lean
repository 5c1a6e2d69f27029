/-
# Controller.JointLimits -- the policy phases and the joint limits

After an inference every joint of the policy target is clamped to its limits, and
the target is copied into `q_des_` and into the goal that the finished phase, the
grasp and `RUN_RL` hold.  Two things have to be excluded: that a later cycle of
the phase starts it over from the measured joints, which it does not since an
inference takes more accumulated time than the start test allows (`Timed`), and
that `std::clamp` is given a NaN, which it passes on.

The second is not excluded by the code: it replaces a non-finite policy output,
but not the product with the speed scale and `action_scale`.  `limitsHold_iff`
says that this is the only way out of the limits.
-/
import FrankaRos.Controller.Course
import FrankaRos.Controller.PhaseOrder

namespace FrankaRos.Controller

open FrankaRos.Theory

set_option autoImplicit false

set_option linter.unusedSectionVars false

namespace MoveCatersianImpWithGripper

variable {K : Type} [MachineArith K]

/-! ## Inferences -/

/-- The state in which a policy phase decides whether to run the policy. -/
def begun (given : Cycle K) (s : MoveCatersianImpWithGripper K) : MoveCatersianImpWithGripper K :=
  (s.prepare given).2.beginPolicy given

/-- The update runs the policy, in this phase. -/
def Infers (ph : PolicyPhase) (s : MoveCatersianImpWithGripper K) (given : Cycle K) : Prop :=
  s.Executes ph.cmd given ∧ (s.begun given).task.finished ph.cmd = false ∧
    (s.begun given).params.rlDt ≤ (s.begun given).refs.rlTimer

instance (ph : PolicyPhase) (s : MoveCatersianImpWithGripper K) (given : Cycle K) :
    Decidable (s.Infers ph given) := inferInstanceAs (Decidable (_ ∧ _ ∧ _))

/-- The targets an inference would clamp are numbers. -/
def NumberTargets (s : MoveCatersianImpWithGripper K) (given : Cycle K) : Prop :=
  ∀ action, given.action = some action → ∀ i,
    (rawTarget s.params s.refs.rlTimer action s.refs.qPolicyTarget i).isNaN = false

/-- Every joint lies within its configured limits. -/
def Within (p : Params K) (q : Vector7d K) : Prop :=
  ∀ i, p.lower (arm i) ≤ q i ∧ q i ≤ p.upper (arm i)

/-- From the first inference of `MOVE_POSE_1` until `MOVE_POSE_2` is entered, and
from the first inference of `MOVE_POSE_2` on, the reference is within the limits. -/
def LimitsHold (t : MoveCatersianImpWithGripper K) (es : List (Event K)) : Prop :=
  ∀ ph pre given mid post, es = pre ++ .update given :: (mid ++ post) →
    (run step t pre).Infers ph given →
    (ph = .pose1 → Throughout step (fun s => s.task.lastCmd ≠ .movePose2)
      ((run step t pre).step (.update given)) mid) →
      Within t.params (run step t (pre ++ .update given :: mid)).refs.qDes

/-- No inference of the run clamps a NaN. -/
def InfersNumbers (t : MoveCatersianImpWithGripper K) (es : List (Event K)) : Prop :=
  ∀ ph pre given post, es = pre ++ .update given :: post →
    (run step t pre).Infers ph given → ((run step t pre).begun given).NumberTargets given

/-- What the parameters are assumed to satisfy. -/
structure SoundLimits (p : Params K) : Prop where
  hold : p.holdPosition = true
  ordered : ∀ i, p.lower (arm i) ≤ p.upper (arm i)
  period : Double.lit (1 / 1000000) < p.rlDt

/-- The events of one activation, with non-negative periods. -/
def Event.Forward (e : Event K) : Prop :=
  e.KeepsActive ∧ ∀ given, e = .update given → 0 ≤ given.period

/-! ## Accumulated time -/

/-- The time since the last inference is part of the time since the entry, unless
the next cycle starts over. -/
def Timed (s : MoveCatersianImpWithGripper K) : Prop :=
  .fin 0 ≤ s.task.elapsedTime ∧ (s.AtStart ∨ s.refs.rlTimer ≤ s.task.elapsedTime)

/-- `Timed`, wherever it matters. -/
def PolicyTimed (s : MoveCatersianImpWithGripper K) : Prop :=
  ∀ ph : PolicyPhase, s.task.lastCmd = ph.cmd → s.Timed

theorem Timed.congr {s s' : MoveCatersianImpWithGripper K} (timed : s.Timed)
    (elapsed : s'.task.elapsedTime = s.task.elapsedTime)
    (timer : s'.refs.rlTimer = s.refs.rlTimer) : s'.Timed := by
  rw [Timed, AtStart, elapsed, timer]
  exact timed

theorem timed_of_entry {s : MoveCatersianImpWithGripper K} (entry : s.task.elapsedTime = .fin 0) :
    s.Timed := by
  have start : Double.abs (.fin (0 : K)) = .fin 0 := Double.abs_of_nonneg (Double.le_refl rfl)
  rw [Timed, AtStart, entry, start]
  exact ⟨Double.le_refl rfl, .inl (Double.lit_nonneg (by norm_num))⟩

/-- The head of a policy phase keeps the two accumulators in order. -/
theorem Timed.begin {s : MoveCatersianImpWithGripper K} (timed : s.Timed) {given : Cycle K}
    (forward : 0 ≤ given.period) :
    .fin 0 ≤ (s.beginPolicy given).task.elapsedTime ∧
      (s.beginPolicy given).refs.rlTimer ≤ (s.beginPolicy given).task.elapsedTime ∧
      s.task.elapsedTime ≤ (s.beginPolicy given).task.elapsedTime := by
  obtain ⟨nonneg, order⟩ := timed
  have grows : s.task.elapsedTime ≤ (s.beginPolicy given).task.elapsedTime :=
    Double.le_add_fin (Double.le_number nonneg).2 forward
  refine ⟨Double.le_trans nonneg grows, ?_, grows⟩
  unfold beginPolicy
  simp only
  split
  · exact Double.add_fin_le_add_fin nonneg given.period
  · rename_i later
    exact Double.add_fin_le_add_fin (order.resolve_left later) given.period

theorem Timed.phase {s : MoveCatersianImpWithGripper K} (timed : s.Timed) (ph : PolicyPhase)
    {given : Cycle K} (forward : 0 ≤ given.period) : (s.policyPhase ph given).2.Timed := by
  obtain ⟨nonneg, order, -⟩ := timed.begin forward
  rcases ran : s.policyPhase ph given with ⟨done, s'⟩
  cases policyCourse ran with
  | held => exact ⟨nonneg, .inr order⟩
  | idle =>
      refine ⟨?_, .inr ?_⟩
      · rw [trackPolicy_elapsedTime]
        exact nonneg
      · rw [trackPolicy_elapsedTime, trackPolicy_refs]
        cases ph <;> exact order
  | threw => exact ⟨nonneg, .inr nonneg⟩
  | inferred =>
      refine ⟨?_, .inr ?_⟩
      · rw [trackPolicy_elapsedTime]
        exact nonneg
      · rw [trackPolicy_elapsedTime, trackPolicy_refs]
        cases ph <;> exact nonneg

theorem PolicyTimed.gated {s : MoveCatersianImpWithGripper K} (timed : s.PolicyTimed) :
    s.gated.PolicyTimed := by
  by_cases advances : s.task.Advances
  · rw [gated_of_advances advances]
    rintro ph mode
    apply timed_of_entry
    have cmd : s.task.taskCmd = ph.cmd := mode
    rw [cmd]
    cases ph <;> rfl
  · rw [gated_of_not_advances advances]
    exact timed

theorem PolicyTimed.update {s : MoveCatersianImpWithGripper K} (timed : s.PolicyTimed)
    {given : Cycle K} (forward : 0 ≤ given.period) : (s.update given).2.PolicyTimed := by
  have prepared : ∀ c i m w, (s.reading c i m w).captureWarmup.PolicyTimed := by
    intro c i m w
    obtain ⟨warmup, captures⟩ := captureWarmup_frame (s.reading c i m w)
    rw [captures]
    exact fun ph mode => (timed.gated ph mode).congr rfl rfl
  have executed : ∀ {s₁ s₂ : MoveCatersianImpWithGripper K} {done : Bool}, s₁.PolicyTimed →
      s₁.phase given = (done, s₂) → s₂.PolicyTimed := by
    intro s₁ s₂ done timed ran ph mode
    have kept := (kept_phase given s₁).lastCmd
    rw [ran] at kept
    have mode₁ : s₁.task.lastCmd = ph.cmd := kept.symm.trans mode
    have timed₂ := (timed ph mode₁).phase ph forward
    rw [phase_of_policy mode₁] at ran
    rw [ran] at timed₂
    exact timed₂
  rcases updated : s.update given with ⟨r, s'⟩
  cases course updated with
  | unread => exact fun ph mode => (timed.gated ph mode).congr rfl rfl
  | warmup _ c i m w i' asked move torque steps same =>
      exact fun ph mode => ((same ▸ prepared c i m w) ph mode).congr rfl rfl
  | unmapped c i m w => exact prepared c i m w
  | thrown c i m w same message past ran => exact executed (same ▸ prepared c i m w) ran
  | control c i m w i' torque steps same message past ran =>
      exact fun ph mode => (executed (same ▸ prepared c i m w) ran ph mode).congr rfl rfl

/-! ## Within the limits -/

/-- What an inference of a phase establishes, in the three modes it lasts for. -/
inductive Bounded (p : Params K) (s : MoveCatersianImpWithGripper K) : PolicyPhase → Prop
  | policy (ph : PolicyPhase) (mode : s.task.lastCmd = ph.cmd)
      (late : Double.lit (1 / 1000000) < s.task.elapsedTime)
      (target : Within p s.refs.qPolicyTarget) (goal : Within p (ph.goal s.refs))
      (des : Within p s.refs.qDes) : Bounded p s ph
  | grasp (mode : s.task.lastCmd = .grasp) (goal : Within p s.refs.qGoal)
      (des : Within p s.refs.qDes) : Bounded p s .pose1
  | runRl (mode : s.task.lastCmd = .runRl) (des : Within p s.refs.qDes) : Bounded p s .pose2

theorem Bounded.des {p : Params K} {s : MoveCatersianImpWithGripper K} {ph : PolicyPhase}
    (bounded : Bounded p s ph) : Within p s.refs.qDes := by
  cases bounded <;> assumption

theorem Bounded.congr {p : Params K} {s s' : MoveCatersianImpWithGripper K} {ph : PolicyPhase}
    (bounded : Bounded p s ph) (lastCmd : s'.task.lastCmd = s.task.lastCmd)
    (elapsed : s'.task.elapsedTime = s.task.elapsedTime) (refs : s'.refs = s.refs) :
    Bounded p s' ph := by
  cases bounded with
  | policy ph mode late target goal des =>
      exact .policy ph (lastCmd.trans mode) (elapsed ▸ late) (refs ▸ target) (refs ▸ goal)
        (refs ▸ des)
  | grasp mode goal des => exact .grasp (lastCmd.trans mode) (refs ▸ goal) (refs ▸ des)
  | runRl mode des => exact .runRl (lastCmd.trans mode) (refs ▸ des)

theorem within_policyTarget {p : Params K} (sound : SoundLimits p) {policyDt : Double K}
    {action : Fin 9 → Double K} {target : Vector7d K}
    (numbers : ∀ i, (rawTarget p policyDt action target i).isNaN = false) :
    Within p (policyTarget p policyDt action target) :=
  fun i => Double.clamp_mem (numbers i) (sound.ordered i)

/-- Tracking a target within the limits. -/
theorem bounded_trackPolicy {p : Params K} {ph : PolicyPhase} {given : Cycle K}
    {s : MoveCatersianImpWithGripper K} (mode : s.task.lastCmd = ph.cmd)
    (late : Double.lit (1 / 1000000) < s.task.elapsedTime)
    (target : Within p s.refs.qPolicyTarget) : Bounded p (s.trackPolicy ph given) ph := by
  refine .policy ph ((kept_trackPolicy ph given s).lastCmd.trans mode) ?_ ?_ ?_ ?_
  · rw [trackPolicy_elapsedTime]
    exact late
  · rw [trackPolicy_refs]
    cases ph <;> exact target
  · rw [trackPolicy_refs]
    cases ph <;> exact target
  · rw [trackPolicy_refs]
    cases ph <;> exact target

theorem Bounded.inPolicy {p : Params K} {s : MoveCatersianImpWithGripper K} {ph : PolicyPhase}
    (bounded : Bounded p s ph) (mode : s.task.lastCmd = ph.cmd) :
    Double.lit (1 / 1000000) < s.task.elapsedTime ∧ Within p s.refs.qPolicyTarget ∧
      Within p (ph.goal s.refs) := by
  cases bounded with
  | policy ph _ late target goal des => exact ⟨late, target, goal⟩
  | grasp other | runRl other =>
      rw [other] at mode
      cases mode

/-- A policy phase that has run its policy, now or before. -/
theorem PolicyCourse.bounded {p : Params K} (sound : SoundLimits p) {ph : PolicyPhase}
    {given : Cycle K} {s s' : MoveCatersianImpWithGripper K} {done : Bool}
    (course : PolicyCourse ph given s done s') (params : s.params = p)
    (mode : s.task.lastCmd = ph.cmd) (late : Double.lit (1 / 1000000) < s.task.elapsedTime)
    (numbers : s.task.finished ph.cmd = false → s.params.rlDt ≤ s.refs.rlTimer → done = true →
      s.NumberTargets given)
    (before : Bounded p s ph ∨
      s.task.finished ph.cmd = false ∧ s.params.rlDt ≤ s.refs.rlTimer ∧ done = true) :
    Bounded p s' ph := by
  cases course with
  | held finished =>
      have bounded : Bounded p s ph := before.resolve_right fun inference => by
        rw [finished] at inference
        cases inference.1
      obtain ⟨-, target, goal⟩ := bounded.inPolicy mode
      have held : (s.hold (ph.goal s.refs)).refs = { s.refs with qDes := ph.goal s.refs } := by
        rw [hold, params, sound.hold]
        rfl
      refine .policy ph mode late ?_ ?_ ?_
      · rw [held]
        exact target
      · rw [held]
        cases ph <;> exact goal
      · rw [held]
        exact goal
  | idle unfinished early =>
      have bounded : Bounded p s ph := before.resolve_right fun inference => early inference.2.1
      exact bounded_trackPolicy mode late (bounded.inPolicy mode).2.1
  | threw unfinished due =>
      have bounded : Bounded p s ph := before.resolve_right fun inference => by cases inference.2.2
      obtain ⟨-, target, goal⟩ := bounded.inPolicy mode
      refine .policy ph mode late target ?_ bounded.des
      cases ph <;> exact goal
  | inferred action output unfinished due =>
      refine bounded_trackPolicy mode late ?_
      subst params
      exact within_policyTarget sound (numbers unfinished due rfl action output)

/-- The head of a policy phase that has run its policy does not start it over. -/
theorem Bounded.begin {p : Params K} {ph : PolicyPhase} {s : MoveCatersianImpWithGripper K}
    (bounded : Bounded p s ph) (mode : s.task.lastCmd = ph.cmd) (timed : s.Timed)
    {given : Cycle K} (forward : 0 ≤ given.period) : Bounded p (s.beginPolicy given) ph := by
  obtain ⟨late, target, goal⟩ := bounded.inPolicy mode
  obtain ⟨-, -, grows⟩ := timed.begin forward
  have past : ¬ s.AtStart := by
    intro start
    rw [AtStart, Double.abs_of_nonneg timed.1] at start
    exact Double.not_lt_of_le start late
  have same : (s.beginPolicy given).refs =
      { s.refs with rlTimer := s.refs.rlTimer + given.dt } := by
    rw [beginPolicy, if_neg past]
  refine .policy ph mode (Double.lt_of_lt_of_le late grows) ?_ ?_ ?_
  · rw [same]
    exact target
  · rw [same]
    cases ph <;> exact goal
  · rw [same]
    exact bounded.des

theorem graspExit_refs (s : MoveCatersianImpWithGripper K) : s.graspExit.refs = s.refs := by
  unfold graspExit
  repeat' split
  all_goals rfl

/-- A phase keeps what an inference has established. -/
theorem Bounded.phase {p : Params K} (sound : SoundLimits p) {ph : PolicyPhase}
    {s s' : MoveCatersianImpWithGripper K} {done : Bool} (bounded : Bounded p s ph)
    (timed : s.PolicyTimed) (params : s.params = p) {given : Cycle K}
    (forward : 0 ≤ given.period)
    (numbers : s.task.lastCmd = ph.cmd → (s.beginPolicy given).task.finished ph.cmd = false →
      (s.beginPolicy given).params.rlDt ≤ (s.beginPolicy given).refs.rlTimer → done = true →
        (s.beginPolicy given).NumberTargets given)
    (ran : s.phase given = (done, s')) : Bounded p s' ph := by
  cases bounded with
  | policy ph mode late target goal des =>
      have begun := (Bounded.policy ph mode late target goal des).begin mode (timed ph mode) forward
      rw [phase_of_policy mode] at ran
      exact (policyCourse ran).bounded sound params mode (begun.inPolicy mode).1 (numbers mode) (.inl begun)
  | grasp mode goal des =>
      rw [MoveCatersianImpWithGripper.phase, mode] at ran
      obtain ⟨-, rfl⟩ := Prod.mk.inj ran
      have held : (s.grasp given).refs = { s.refs with qDes := s.refs.qGoal } := by
        rw [MoveCatersianImpWithGripper.grasp, graspExit_refs]
        unfold graspHold hold
        simp only [params, sound.hold, if_true]
      refine .grasp ((kept_grasp given s).lastCmd.trans mode) ?_ ?_
      · rw [held]
        exact goal
      · rw [held]
        exact goal
  | runRl mode des =>
      rw [MoveCatersianImpWithGripper.phase, mode] at ran
      obtain ⟨-, rfl⟩ := Prod.mk.inj ran
      exact .runRl mode des

/-- The gate keeps it, or leaves for `MOVE_POSE_2`. -/
theorem Bounded.gated {p : Params K} {ph : PolicyPhase} {s : MoveCatersianImpWithGripper K}
    (bounded : Bounded p s ph) :
    Bounded p s.gated ph ∨ ph = .pose1 ∧ s.gated.task.lastCmd = .movePose2 := by
  by_cases advances : s.task.Advances
  · have next := advances.1
    rw [gated_of_advances advances]
    cases bounded with
    | policy ph mode late target goal des =>
        rw [mode] at next
        cases ph with
        | pose1 =>
            rw [← Option.some.inj next]
            exact .inl (.grasp rfl goal des)
        | pose2 =>
            rw [← Option.some.inj next]
            exact .inl (.runRl rfl des)
    | grasp mode goal des =>
        rw [mode] at next
        rw [← Option.some.inj next]
        exact .inr ⟨rfl, rfl⟩
    | runRl mode des =>
        rw [mode] at next
        cases next
  · rw [gated_of_not_advances advances]
    exact .inl bounded

/-! ## Past the warm-up -/

/-- An activation with parameters `p` whose warm-up is over. -/
structure Past (p : Params K) (s : MoveCatersianImpWithGripper K) : Prop where
  params : s.params = p
  inited : s.warmup.inited = true
  past : ¬ s.Warming

theorem captureWarmup_of_inited {s : MoveCatersianImpWithGripper K}
    (inited : s.warmup.inited = true) : s.captureWarmup = s := by
  rw [captureWarmup, if_neg (by rw [inited]; decide)]

theorem captureWarmup_inited (s : MoveCatersianImpWithGripper K) :
    s.captureWarmup.warmup.inited = true := by
  unfold captureWarmup
  split
  · rfl
  · rename_i inited
    exact Bool.eq_true_of_not_eq_false inited

theorem Past.congr {p : Params K} {s s' : MoveCatersianImpWithGripper K} (past : Past p s)
    (params : s'.params = s.params) (warmup : s'.warmup = s.warmup) : Past p s' := by
  refine ⟨params.trans past.params, ?_, ?_⟩
  · rw [warmup]
    exact past.inited
  · rw [Warming, params, warmup]
    exact past.past

theorem Past.reading {p : Params K} {s : MoveCatersianImpWithGripper K} (past : Past p s)
    (c : Counters K) (i : Interfaces K) (m : Measured K) (w : WrenchWindow K) :
    Past p (s.reading c i m w) :=
  past.congr (gated_params s) (gated_warmup s)

/-- Past the warm-up, a cycle that has read its inputs captures nothing. -/
theorem Past.captured {p : Params K} {s : MoveCatersianImpWithGripper K} (past : Past p s)
    (c : Counters K) (i : Interfaces K) (m : Measured K) (w : WrenchWindow K) :
    (s.reading c i m w).captureWarmup = s.reading c i m w :=
  captureWarmup_of_inited (past.reading c i m w).inited

theorem Past.phase {p : Params K} {s s' : MoveCatersianImpWithGripper K} {given : Cycle K}
    {done : Bool} (past : Past p s) (ran : s.phase given = (done, s')) : Past p s' := by
  obtain ⟨refs, task, gripper, frame⟩ := phase_frame given s
  rw [ran] at frame
  obtain rfl := frame
  exact past.congr rfl rfl

/-- The updates past the warm-up keep it over, and keep what an inference has
established until they leave for `MOVE_POSE_2`. -/
theorem Bounded.update {p : Params K} (sound : SoundLimits p) {ph : PolicyPhase}
    {s : MoveCatersianImpWithGripper K} (bounded : Bounded p s ph) (timed : s.PolicyTimed)
    (past : Past p s) {given : Cycle K} (forward : 0 ≤ given.period)
    (numbers : s.Infers ph given → (s.begun given).NumberTargets given) :
    Past p (s.update given).2 ∧
      (Bounded p (s.update given).2 ph ∨
        ph = .pose1 ∧ (s.update given).2.task.lastCmd = .movePose2) := by
  have kept := update_kept given s
  have taken : Course given s (s.update given).1 (s.update given).2 := course rfl
  generalize result : (s.update given).1 = r at taken
  generalize after : (s.update given).2 = s' at taken kept ⊢
  -- behind a gate that keeps the bounds, each course keeps them
  have behind : Past p s' ∧ (Bounded p s.gated ph → Bounded p s' ph) := by
    cases taken with
    | unread c i m w => exact ⟨past.reading c i m w, fun bounded => bounded.congr rfl rfl rfl⟩
    | warmup _ c i m w i' asked move torque steps prepared message warming =>
        rw [prepared, past.captured] at warming
        exact absurd warming (past.reading c i m w).past
    | unmapped c i m w =>
        rw [past.captured]
        exact ⟨past.reading c i m w, fun bounded => bounded.congr rfl rfl rfl⟩
    | thrown c i m w prepared message warm ran =>
        rw [past.captured] at prepared
        subst prepared
        refine ⟨(past.reading c i m w).phase ran, fun bounded => ?_⟩
        have bounded₁ : Bounded p (s.reading c i m w) ph := bounded.congr rfl rfl rfl
        have timed₁ : (s.reading c i m w).PolicyTimed := fun ph mode =>
          (timed.gated ph mode).congr rfl rfl
        exact Bounded.phase sound bounded₁ timed₁ (past.reading c i m w).params forward
          (fun _ _ _ done => by cases done) ran
    | control c i m w i' torque steps prepared message warm ran reads mapped source =>
        rename_i s₁ s₂
        rw [past.captured] at prepared
        have past₁ : Past p s₁ := prepared ▸ past.reading c i m w
        refine ⟨(past₁.phase ran).congr rfl rfl, fun bounded => ?_⟩
        have bounded₁ : Bounded p s₁ ph := prepared ▸ bounded.congr rfl rfl rfl
        have timed₁ : s₁.PolicyTimed := prepared ▸ fun ph mode =>
          (timed.gated ph mode).congr rfl rfl
        refine (Bounded.phase sound bounded₁ timed₁ past₁.params forward
          (fun mode unfinished due _ => ?_) ran).congr rfl rfl rfl
        subst source
        refine numbers ⟨⟨result, warm, ?_⟩, unfinished, due⟩
        rw [after, kept.lastCmd]
        rw [prepared] at mode
        exact mode
  exact ⟨behind.1, bounded.gated.imp behind.2 fun left => ⟨left.1, kept.lastCmd.trans left.2⟩⟩

/-- The update of an inference establishes the bounds. -/
theorem bounded_of_infers {p : Params K} (sound : SoundLimits p) {ph : PolicyPhase}
    {s : MoveCatersianImpWithGripper K} (timed : s.PolicyTimed) (params : s.params = p)
    {given : Cycle K} (forward : 0 ≤ given.period) (infers : s.Infers ph given)
    (numbers : (s.begun given).NumberTargets given) :
    Past p (s.update given).2 ∧ Bounded p (s.update given).2 ph := by
  obtain ⟨executes, unfinished, due⟩ := infers
  obtain ⟨c, i, m, w, s₂, i', torque, steps, ran, mode, source, eq⟩ := executes.phase
  obtain ⟨warmup, captures⟩ := captureWarmup_frame (s.reading c i m w)
  have past₁ : Past p (s.reading c i m w).captureWarmup := by
    refine ⟨?_, captureWarmup_inited _, ?_⟩
    · rw [captures]
      exact (gated_params s).trans params
    · rw [source]
      exact executes.2.1
  have timed₁ : (s.reading c i m w).captureWarmup.Timed := by
    rw [captures] at mode ⊢
    exact (timed.gated ph mode).congr rfl rfl
  obtain ⟨-, order, -⟩ := timed₁.begin forward
  rw [eq]
  refine ⟨(past₁.phase ran).congr rfl rfl, ?_⟩
  rw [phase_of_policy mode] at ran
  rw [source] at past₁ mode order ran
  refine ((policyCourse ran).bounded sound past₁.params mode ?_ (fun _ _ _ => numbers)
    (.inr ⟨unfinished, due, rfl⟩)).congr rfl rfl rfl
  -- the policy period has passed since the entry
  have passed : p.rlDt ≤ (s.begun given).task.elapsedTime := by
    rw [← past₁.params]
    exact Double.le_trans due order
  exact Double.lt_of_lt_of_le sound.period passed

/-! ## Runs of one activation -/

/-- While the controller stays active, an update is the only event that matters. -/
theorem forward_step {s : MoveCatersianImpWithGripper K} {e : Event K}
    (active : s.services.lifecycle = .active) (forward : e.Forward) :
    (∃ given, e = .update given ∧ 0 ≤ given.period ∧ s.step e = (s.update given).2) ∨
      Quiet s (s.step e) := by
  rcases step_active active forward.1 with ⟨given, rfl, eq⟩ | ⟨-, quiet⟩
  · exact .inl ⟨given, rfl, forward.2 given rfl, eq⟩
  · exact .inr quiet

theorem PolicyTimed.step {s : MoveCatersianImpWithGripper K} (timed : s.PolicyTimed) {e : Event K}
    (active : s.services.lifecycle = .active) (forward : e.Forward) : (s.step e).PolicyTimed := by
  rcases forward_step active forward with ⟨given, rfl, period, eq⟩ | quiet
  · rw [eq]
    exact timed.update period
  · intro ph mode
    rw [quiet.lastCmd] at mode
    exact (timed ph mode).congr quiet.elapsedTime (congrArg Refs.rlTimer quiet.refs)

theorem params_step {s : MoveCatersianImpWithGripper K} {e : Event K}
    (active : s.services.lifecycle = .active) (stays : e.KeepsActive) :
    (s.step e).params = s.params := by
  rcases step_active active stays with ⟨given, -, eq⟩ | ⟨-, quiet⟩
  · rw [eq, (update_kept given s).params, gated_params]
  · exact quiet.params

/-- What holds in every state of an activation with parameters `p`. -/
structure Running (p : Params K) (s : MoveCatersianImpWithGripper K) : Prop where
  active : s.services.lifecycle = .active
  params : s.params = p
  timed : s.PolicyTimed

theorem Running.step {p : Params K} {s : MoveCatersianImpWithGripper K} (running : Running p s)
    {e : Event K} (forward : e.Forward) : Running p (s.step e) :=
  ⟨active_step running.active forward.1, (params_step running.active forward.1).trans running.params,
    running.timed.step running.active forward⟩

theorem Running.run {p : Params K} {s : MoveCatersianImpWithGripper K} (running : Running p s)
    {es : List (Event K)} (forward : ∀ e ∈ es, e.Forward) :
    Running p (Theory.run MoveCatersianImpWithGripper.step s es) :=
  run_invariant MoveCatersianImpWithGripper.step (fun _ _ forward running => running.step forward)
    forward running

/-- What an inference has established lasts until `MOVE_POSE_2` is entered. -/
theorem bounded_run {p : Params K} (sound : SoundLimits p) {ph : PolicyPhase}
    {s : MoveCatersianImpWithGripper K} {es : List (Event K)} (running : Running p s)
    (past : Past p s) (bounded : Bounded p s ph) (forward : ∀ e ∈ es, e.Forward)
    (numbers : Along step (fun s e => ∀ given, e = .update given → s.Infers ph given →
      (s.begun given).NumberTargets given) s es)
    (until_pose2 : ph = .pose1 → Throughout step (fun s => s.task.lastCmd ≠ .movePose2) s es) :
    Bounded p (run step s es) ph := by
  induction es generalizing s with
  | nil => exact bounded
  | cons e es ih =>
      have forward_e := forward e List.mem_cons_self
      have next : Past p (s.step e) ∧ Bounded p (s.step e) ph := by
        rcases forward_step running.active forward_e with ⟨given, rfl, period, eq⟩ | quiet
        · rw [eq]
          obtain ⟨past', bounded' | ⟨pose1, left⟩⟩ :=
            bounded.update sound running.timed past period (numbers.1 given rfl)
          · exact ⟨past', bounded'⟩
          · rw [← eq] at left
            exact absurd left (until_pose2 pose1).2.first
        · exact ⟨past.congr quiet.params quiet.warmup,
            bounded.congr quiet.lastCmd quiet.elapsedTime quiet.refs⟩
      exact ih (running.step forward_e) next.1 next.2
        (fun e' member => forward e' (List.mem_cons_of_mem e member)) numbers.2
        fun pose1 => (until_pose2 pose1).2

/-- The reference follows the target of the policy. -/
theorem trackPolicy_qDes (ph : PolicyPhase) (given : Cycle K) (s : MoveCatersianImpWithGripper K) :
    (s.trackPolicy ph given).refs.qDes = s.refs.qPolicyTarget ∧
      (s.trackPolicy ph given).refs.qPolicyTarget = s.refs.qPolicyTarget := by
  rw [trackPolicy_refs]
  cases ph <;> exact ⟨rfl, rfl⟩

/-- An update of an unfinished phase ends with the reference at the target: the one it began
with, or the one that an inference has clamped. -/
theorem Executes.tracked {ph : PolicyPhase} {s : MoveCatersianImpWithGripper K} {given : Cycle K}
    (executes : s.Executes ph.cmd given)
    (unfinished : (s.begun given).task.finished ph.cmd = false) :
    (s.update given).2.refs.qDes = (s.update given).2.refs.qPolicyTarget ∧
      (¬ s.Infers ph given ∧ (s.update given).2.refs.qDes = (s.begun given).refs.qPolicyTarget ∨
        s.Infers ph given ∧ ∃ action, given.action = some action ∧
          (s.update given).2.refs.qDes = policyTarget (s.begun given).params
            (s.begun given).refs.rlTimer action (s.begun given).refs.qPolicyTarget) := by
  obtain ⟨c, i, m, w, s₂, i', torque, steps, ran, mode, source, eq⟩ := executes.phase
  rw [phase_of_policy mode, source] at ran
  rw [eq]
  cases policyCourse ran with
  | held finished =>
      have finished' : (s.begun given).task.finished ph.cmd = true := finished
      rw [unfinished] at finished'
      cases finished'
  | idle _ early =>
      refine ⟨(trackPolicy_qDes ph given _).1.trans (trackPolicy_qDes ph given _).2.symm, .inl ?_⟩
      exact ⟨fun infers => early infers.2.2, (trackPolicy_qDes ph given _).1⟩
  | inferred action output _ due =>
      refine ⟨(trackPolicy_qDes ph given _).1.trans (trackPolicy_qDes ph given _).2.symm, .inr ?_⟩
      exact ⟨⟨executes, unfinished, due⟩, action, output, (trackPolicy_qDes ph given _).1⟩

/-- An inference copies the clamped targets into the reference. -/
theorem Infers.qDes {ph : PolicyPhase} {s : MoveCatersianImpWithGripper K} {given : Cycle K}
    (infers : s.Infers ph given) {action : Fin 9 → Double K} (output : given.action = some action) :
    (s.update given).2.refs.qDes = policyTarget (s.begun given).params (s.begun given).refs.rlTimer
      action (s.begun given).refs.qPolicyTarget := by
  rcases (infers.1.tracked infers.2.1).2 with ⟨idle, -⟩ | ⟨-, action', output', des⟩
  · exact absurd infers idle
  · rw [output] at output'
    obtain rfl := Option.some.inj output'
    exact des

/-- A NaN passes through the clamp. -/
theorem numberTargets_of_within {p : Params K} {ph : PolicyPhase}
    {s : MoveCatersianImpWithGripper K} {given : Cycle K} (infers : s.Infers ph given)
    (within : Within p (s.update given).2.refs.qDes) : (s.begun given).NumberTargets given := by
  intro action output i
  rw [infers.qDes output] at within
  have number := (Double.le_number (within i).1).2
  rw [← Bool.not_eq_true]
  intro nan
  have target : rawTarget (s.begun given).params (s.begun given).refs.rlTimer action
      (s.begun given).refs.qPolicyTarget i = .nan := Double.isNaN_iff.1 nan
  rw [policyTarget, target, Double.clamp_nan] at number
  cases number

/-! ## When the limits hold -/

/-- **The joint limits of the policy phases, exactly.**  In an activation with a
held position, ordered limits, a policy period above the start test and
non-negative periods, the reference is within its limits wherever an inference
promises it if and only if no inference clamps a NaN. -/
theorem limitsHold_iff {s : MoveCatersianImpWithGripper K} {a : Activation K}
    (inactive : s.services.lifecycle = .inactive) (success : (s.onActivate a).1 = .success)
    (sound : SoundLimits (s.step (.activate a)).params) {es : List (Event K)}
    (forward : ∀ e ∈ es, e.Forward) :
    LimitsHold (s.step (.activate a)) es ↔ InfersNumbers (s.step (.activate a)) es := by
  have fresh := justActivated inactive success
  have start : Running (s.step (.activate a)).params (s.step (.activate a)) := by
    refine ⟨fresh.lifecycle, rfl, fun ph mode => ?_⟩
    rw [fresh.lastCmd] at mode
    cases ph <;> cases mode
  generalize s.step (.activate a) = t at sound start ⊢
  constructor
  · rintro limits ph pre given post rfl infers
    have running := start.run fun e member => forward e (List.mem_append_left _ member)
    have within := limits ph pre given [] post rfl infers fun pose1 => by
      rw [throughout_nil, step, if_pos running.active, infers.1.2.2, pose1]
      decide
    rw [run_append, run_cons, run_nil, step, if_pos running.active] at within
    exact numberTargets_of_within infers within
  · rintro numbers ph pre given mid post rfl infers until_pose2
    have forward_pre : ∀ e ∈ pre, e.Forward := fun e member =>
      forward e (List.mem_append_left _ member)
    have forward_update : (Event.update given).Forward := forward _ (by simp)
    have running := start.run forward_pre
    obtain ⟨past, bounded⟩ := bounded_of_infers sound running.timed running.params
      (forward_update.2 given rfl) infers (numbers ph pre given (mid ++ post) rfl infers)
    have updated : (run step t pre).step (.update given) = ((run step t pre).update given).2 :=
      if_pos running.active
    rw [run_append, run_cons]
    rw [← updated] at past bounded
    refine (bounded_run sound (running.step forward_update) past bounded
      (fun e member => forward e (by simp [member])) ?_ until_pose2).des
    rw [along_iff_split]
    rintro before e after rfl given' rfl infers'
    have there := numbers ph (pre ++ .update given :: before) given' (after ++ post) (by simp)
    rw [run_append, run_cons] at there
    exact there infers'

/-- The first inference of the concrete robot. -/
def firstInference : List (Event ℚ) := [.taskCmd "move_pose_1", .update (fr3Cycle 1 0 1)]

theorem limitsHold_firstInference :
    LimitsHold ((fr3Inactive fr3Scalars).step (.activate (fr3Activation 0))) firstInference := by
  refine (limitsHold_iff (by decide +kernel) (by decide +kernel)
    ⟨by decide +kernel, by decide +kernel, by decide +kernel⟩ ?_).2 ?_
  · intro e member
    simp only [firstInference, List.mem_cons, List.not_mem_nil, or_false] at member
    rcases member with rfl | rfl
    · exact ⟨trivial, fun _ same => by cases same⟩
    · exact ⟨trivial, fun _ same => by cases same; decide +kernel⟩
  · rintro ph (_ | ⟨e, _ | ⟨e', pre⟩⟩) given post split infers action output i
    · cases split
    · cases split
      cases output
      revert i
      decide +kernel
    · have length := congrArg List.length split
      simp [firstInference] at length

/-- With an infinite `action_scale`, a policy output of zero is a NaN. -/
theorem infiniteScale_not_limitsHold :
    ¬ LimitsHold ((fr3Inactive { fr3Scalars with actionScale := .posInf }).step
      (.activate (fr3Activation 0))) firstInference := by
  intro limits
  have within := limits .pose1 [.taskCmd "move_pose_1"] (fr3Cycle 1 0 1) [] [] rfl
    (by decide +kernel) fun _ => by
      show _ ≠ _
      decide +kernel
  exact absurd (within 0).1 (by decide +kernel)

end MoveCatersianImpWithGripper

end FrankaRos.Controller
