/-
# Controller.RateBound -- how far the reference moves in a policy phase

Between two cycles of an unfinished policy phase the reference changes only when the
policy runs, by a step of at most `maxStep`, and is then clamped to the joint limits.
A cycle that fails leaves it alone.  Three things can make it move further: a reference
that was outside its limits is brought inside by the clamp, however far that is, a cycle
that still finds the accumulated time at the start value takes the measured joints over
again, and where the inference of such a cycle throws, it is the next one to end that
copies them into the reference (`StartThrew`).

Past its start a phase therefore keeps the reference at the target (`OnTarget`), whatever
fails in between, unless its start threw (`onTarget_run`).
-/
import FrankaRos.Controller.JointLimits
import FrankaRos.Controller.TimerServices

namespace FrankaRos.Controller

open FrankaRos.Theory

set_option autoImplicit false

set_option linter.unusedSectionVars false

/-- The largest step of a joint's target in the time between two inferences. -/
def maxStep {K : Type} [MachineArith K] (p : Params K) (policyDt : Double K) (i : Fin 7) :
    Double K := Double.abs (p.speedScales (arm i) * policyDt * p.actionScale)

/-- A joint's step stays below the largest, whatever the policy returns. -/
theorem step_le_maxStep {K : Type} [ScaledArith K] (p : Params K) {policyDt : Double K}
    (action : Double K) {i : Fin 7} (finite : (maxStep p policyDt i).isFinite = true) :
    -maxStep p policyDt i ≤ p.speedScales (arm i) * policyDt * usedAction action * p.actionScale ∧
      p.speedScales (arm i) * policyDt * usedAction action * p.actionScale ≤
        maxStep p policyDt i := by
  have used : ∃ w, usedAction action = .fin w ∧ MachineArith.ofRat (-1) ≤ w ∧
      w ≤ MachineArith.ofRat 1 := by
    have ordered : (Double.lit (-1) : Double K) ≤ Double.lit 1 :=
      Double.fin_le_fin.2 (ScaledArith.ofRat_mono _ _ (by norm_num))
    have number : (if action.isFinite then action else 0).isNaN = false := by
      cases action <;> rfl
    obtain ⟨above, below⟩ := Double.clamp_mem number ordered
    obtain ⟨w, same⟩ := Double.exists_fin above below
    exact ⟨w, same, Double.fin_le_fin.1 (same ▸ above), Double.fin_le_fin.1 (same ▸ below)⟩
  obtain ⟨w, used, above, below⟩ := used
  unfold maxStep at finite ⊢
  have product := finite
  rw [Double.abs_isFinite] at product
  obtain ⟨u, v, speed, scale⟩ := Double.finite_of_mul product
  obtain ⟨x, moved, smaller⟩ := Double.mul_unit above below u
  rw [used, speed, scale, moved]
  exact Double.mul_between smaller v

namespace MoveCatersianImpWithGripper

section

variable {K : Type} [MachineArith K]

/-- An update of an unfinished policy phase, whether it runs the phase to its end, returns
an error or throws from its inference. -/
def Belongs (ph : PolicyPhase) (s : MoveCatersianImpWithGripper K) (given : Cycle K) : Prop :=
  ¬ (s.prepare given).2.Warming ∧ (s.update given).2.task.lastCmd = ph.cmd ∧
    (s.begun given).task.finished ph.cmd = false

instance (ph : PolicyPhase) (s : MoveCatersianImpWithGripper K) (given : Cycle K) :
    Decidable (s.Belongs ph given) := inferInstanceAs (Decidable (_ ∧ _ ∧ _))

/-- The update runs an unfinished policy phase to its end. -/
def Tracks (ph : PolicyPhase) (s : MoveCatersianImpWithGripper K) (given : Cycle K) : Prop :=
  s.Executes ph.cmd given ∧ (s.begun given).task.finished ph.cmd = false

/-- The update takes the measured joints over, and its inference throws. -/
def ThrowsAtStart (ph : PolicyPhase) (s : MoveCatersianImpWithGripper K) (given : Cycle K) :
    Prop :=
  (s.prepare given).2.AtStart ∧ (s.update given).1 = .escaped ∧
    (s.update given).2.task.lastCmd = ph.cmd

/-- An update has thrown at the start of the phase, and no update of the activation has run
the phase to its end since. -/
def StartThrew (ph : PolicyPhase) (t : MoveCatersianImpWithGripper K) (past : List (Event K)) :
    Prop :=
  ∃ pre given post, past = pre ++ .update given :: post ∧
    (run step t pre).services.lifecycle = .active ∧ (run step t pre).ThrowsAtStart ph given ∧
    Along step (fun s e => e.KeepsActive ∧ ∀ given, e = .update given → ¬ s.Tracks ph given)
      ((run step t pre).step (.update given)) post

/-- The time between the last two inferences, where the update makes one. -/
def policyDt (s : MoveCatersianImpWithGripper K) (given : Cycle K) : Double K :=
  (s.begun given).refs.rlTimer

/-- Any two consecutive updates of one unfinished phase: `P` holds of the phase, what came
before the later one, and its cycle. -/
def Consecutive (P : PolicyPhase → MoveCatersianImpWithGripper K → List (Event K) → Cycle K → Prop)
    (t : MoveCatersianImpWithGripper K) (es : List (Event K)) : Prop :=
  ∀ ph pre given mid given' post, es = pre ++ .update given :: (mid ++ .update given' :: post) →
    (∀ e ∈ mid, e.KeepsActive ∧ ∀ given, e ≠ .update given) →
    (run step t pre).services.lifecycle = .active → (run step t pre).Belongs ph given →
      (run step t (pre ++ .update given :: mid)).Belongs ph given' →
        P ph t (pre ++ .update given :: mid) given'

/-- A joint moves at most `|speed scale * action scale| * dt` where the policy runs, and
otherwise not at all. -/
def RateHolds (ph : PolicyPhase) (t : MoveCatersianImpWithGripper K) (past : List (Event K))
    (given : Cycle K) : Prop :=
  let s := run step t past
  (s.Infers ph given → ∀ i, Double.abs ((s.update given).2.refs.qDes i - s.refs.qDes i) ≤
      Double.abs (s.params.speedScales (arm i) * s.params.actionScale) * s.policyDt given) ∧
    (¬ s.Infers ph given → (s.update given).2.refs.qDes = s.refs.qDes)

/-- Where the policy runs, a joint moves by a step of at most `maxStep` and is then
clamped to its limits, so from within them it moves by `maxStep` at most. -/
structure Stepped (s : MoveCatersianImpWithGripper K) (given : Cycle K) (i : Fin 7) : Prop where
  clamped : ∃ d, -maxStep s.params (s.policyDt given) i ≤ d ∧
    d ≤ maxStep s.params (s.policyDt given) i ∧ (s.update given).2.refs.qDes i =
      Double.clamp (s.refs.qDes i + d) (s.params.lower (arm i)) (s.params.upper (arm i))
  within : s.params.lower (arm i) ≤ s.refs.qDes i → s.refs.qDes i ≤ s.params.upper (arm i) →
    s.refs.qDes i - maxStep s.params (s.policyDt given) i ≤ (s.update given).2.refs.qDes i ∧
      (s.update given).2.refs.qDes i ≤ s.refs.qDes i + maxStep s.params (s.policyDt given) i

/-- A failed update leaves the reference alone, and so does one past the start of its phase
that does not run the policy; one that runs it moves each joint by a step. -/
def RateBounded (ph : PolicyPhase) (t : MoveCatersianImpWithGripper K) (past : List (Event K))
    (given : Cycle K) : Prop :=
  let s := run step t past
  ((s.update given).1 ≠ .ok → (s.update given).2.refs.qDes = s.refs.qDes) ∧
    (¬ s.AtStart → ¬ StartThrew ph t past →
      (s.Infers ph given → ∀ i, (maxStep s.params (s.policyDt given) i).isFinite = true →
        s.Stepped given i) ∧
      (¬ s.Infers ph given → (s.update given).2.refs.qDes = s.refs.qDes))

/-! ## What an update of a phase leaves -/

theorem Belongs.tracks {ph : PolicyPhase} {s : MoveCatersianImpWithGripper K} {given : Cycle K}
    (belongs : s.Belongs ph given) (ok : (s.update given).1 = .ok) : s.Tracks ph given :=
  ⟨⟨ok, belongs.1, belongs.2.1⟩, belongs.2.2⟩

/-- Without an inference, the target is the one the update began with. -/
theorem Tracks.idle {ph : PolicyPhase} {s : MoveCatersianImpWithGripper K} {given : Cycle K}
    (tracks : s.Tracks ph given) (idle : ¬ s.Infers ph given) :
    (s.update given).2.refs.qDes = (s.begun given).refs.qPolicyTarget := by
  rcases (tracks.1.tracked tracks.2).2 with ⟨-, des⟩ | ⟨infers, -⟩
  · exact des
  · exact absurd infers idle

/-- An update that returns after an inference had an output. -/
theorem Infers.output {ph : PolicyPhase} {s : MoveCatersianImpWithGripper K} {given : Cycle K}
    (infers : s.Infers ph given) : ∃ action, given.action = some action := by
  rcases (infers.1.tracked infers.2.1).2 with ⟨idle, -⟩ | ⟨-, action, output, -⟩
  · exact absurd infers idle
  · exact ⟨action, output⟩

/-- The entry of a phase writes to the start configuration only. -/
theorem gated_qDes (s : MoveCatersianImpWithGripper K) : s.gated.refs.qDes = s.refs.qDes := by
  by_cases advances : s.task.Advances
  · rw [gated_of_advances advances]
    cases s.task.taskCmd <;> rfl
  · rw [gated_of_not_advances advances]

/-- Only a policy phase throws, where its inference does. -/
theorem phase_throws {s s' : MoveCatersianImpWithGripper K} {given : Cycle K}
    (ran : s.phase given = (false, s')) : s' =
      { s.beginPolicy given with refs := { (s.beginPolicy given).refs with rlTimer := 0 } } := by
  have thrown : ∀ ph : PolicyPhase, s.task.lastCmd = ph.cmd → s' =
      { s.beginPolicy given with refs := { (s.beginPolicy given).refs with rlTimer := 0 } } := by
    intro ph mode
    rw [phase_of_policy mode] at ran
    cases policyCourse ran
    rfl
  cases mode : s.task.lastCmd with
  | movePose1 => exact thrown .pose1 mode
  | movePose2 => exact thrown .pose2 mode
  | _ =>
      rw [phase, mode] at ran
      cases ran

theorem beginPolicy_qDes (given : Cycle K) (s : MoveCatersianImpWithGripper K) :
    (s.beginPolicy given).refs.qDes = s.refs.qDes := by
  unfold beginPolicy
  simp only
  split <;> rfl

/-- A failed update past the warm-up leaves the reference alone. -/
theorem update_qDes_of_failed {s : MoveCatersianImpWithGripper K} {given : Cycle K}
    (past : ¬ (s.prepare given).2.Warming) (failed : (s.update given).1 ≠ .ok) :
    (s.update given).2.refs.qDes = s.refs.qDes := by
  rcases ran : s.update given with ⟨r, s'⟩
  rw [ran] at failed
  cases course ran with
  | unread => exact gated_qDes s
  | warmup _ c i m w i' asked move torque steps prepared message warming held =>
      exact absurd held past
  | unmapped c i m w => rw [captureWarmup_refs, reading, gated_qDes]
  | thrown c i m w prepared message warm run =>
      obtain rfl := phase_throws run
      rw [beginPolicy_qDes, prepared, captureWarmup_refs, reading, gated_qDes]
  | control => exact absurd rfl failed

/-! ## The reference and the target -/

/-- An unfinished phase is at its start, or past it with the reference at the target. -/
def OnTarget (ph : PolicyPhase) (s : MoveCatersianImpWithGripper K) : Prop :=
  s.task.lastCmd = ph.cmd → s.task.finished ph.cmd = false →
    s.AtStart ∨ Past s.params s ∧ s.refs.qDes = s.refs.qPolicyTarget

theorem OnTarget.congr {ph : PolicyPhase} {s s' : MoveCatersianImpWithGripper K}
    (onTarget : s.OnTarget ph) (params : s'.params = s.params)
    (warmup : s'.warmup = s.warmup) (refs : s'.refs = s.refs)
    (lastCmd : s'.task.lastCmd = s.task.lastCmd)
    (elapsed : s'.task.elapsedTime = s.task.elapsedTime)
    (finished : ∀ cmd, s'.task.finished cmd = s.task.finished cmd) : s'.OnTarget ph := by
  rw [OnTarget, AtStart, lastCmd, elapsed, finished, refs]
  intro mode unfinished
  rcases onTarget mode unfinished with start | ⟨past, same⟩
  · exact .inl start
  · rw [params]
    exact .inr ⟨past.congr params warmup, same⟩

/-- The entry of a phase puts it at its start. -/
theorem OnTarget.gated {ph : PolicyPhase} {s : MoveCatersianImpWithGripper K}
    (onTarget : s.OnTarget ph) : s.gated.OnTarget ph := by
  by_cases advances : s.task.Advances
  · rw [gated_of_advances advances]
    intro mode _
    have cmd : s.task.taskCmd = ph.cmd := mode
    have zero : Double.abs (.fin (0 : K)) = .fin 0 := Double.abs_of_nonneg (Double.le_refl rfl)
    have start : Double.abs (.fin (0 : K)) ≤ Double.lit (1 / 1000000) := by
      rw [zero]
      exact Double.lit_nonneg (by norm_num)
    rw [cmd]
    cases ph <;> exact .inl start
  · rw [gated_of_not_advances advances]
    exact onTarget

/-- An update that runs the phase to its end leaves the reference at the target. -/
theorem onTarget_of_executes {ph : PolicyPhase} {s : MoveCatersianImpWithGripper K}
    {given : Cycle K} (executes : s.Executes ph.cmd given) : (s.update given).2.OnTarget ph := by
  intro _ unfinished
  obtain ⟨c, i, m, w, s₂, i', torque, steps, ran, mode, source, eq⟩ := executes.phase
  have past : Past (s.reading c i m w).captureWarmup.params (s.reading c i m w).captureWarmup := by
    refine ⟨rfl, captureWarmup_inited _, ?_⟩
    rw [source]
    exact executes.2.1
  have kept := kept_phase given (s.reading c i m w).captureWarmup
  rw [ran] at kept
  have past₂ : Past s₂.params s₂ := by
    rw [kept.params]
    exact past.phase ran
  rw [eq] at unfinished ⊢
  refine .inr ⟨past₂.congr rfl rfl, ?_⟩
  rw [phase_of_policy mode] at ran
  cases policyCourse ran with
  | held finished => cases finished.symm.trans unfinished
  | idle => exact (trackPolicy_qDes ph given _).1.trans (trackPolicy_qDes ph given _).2.symm
  | inferred => exact (trackPolicy_qDes ph given _).1.trans (trackPolicy_qDes ph given _).2.symm

theorem prepare_atStart (given : Cycle K) (s : MoveCatersianImpWithGripper K) :
    (s.prepare given).2.AtStart ↔ s.gated.AtStart := by
  obtain ⟨c, i, m, w, u, frame⟩ := prepare_frame given s
  rw [frame]
  exact Iff.rfl

/-- An update that throws past the start changes neither the reference nor the target. -/
theorem onTarget_of_throws {ph : PolicyPhase} {s : MoveCatersianImpWithGripper K} {given : Cycle K}
    (onTarget : s.OnTarget ph) (past : ¬ s.AtStart) : OnTarget ph
      { s.beginPolicy given with refs := { (s.beginPolicy given).refs with rlTimer := 0 } } := by
  intro mode unfinished
  have unfinished' : s.task.finished ph.cmd = false := by
    cases ph <;> exact unfinished
  obtain ⟨warm, same⟩ := (onTarget mode unfinished').resolve_left past
  refine .inr ⟨warm.congr rfl rfl, ?_⟩
  rw [beginPolicy, if_neg past]
  exact same

/-- Every update keeps the reference at the target, unless it throws at the start. -/
theorem OnTarget.update {ph : PolicyPhase} {s : MoveCatersianImpWithGripper K} {given : Cycle K}
    (onTarget : s.OnTarget ph) (through : ¬ s.ThrowsAtStart ph given) :
    (s.update given).2.OnTarget ph := by
  have kept := update_kept given s
  rw [ThrowsAtStart, prepare_atStart] at through
  rcases ran : s.update given with ⟨r, s'⟩
  rw [ran] at kept through
  have read : ∀ c i m w, (s.reading c i m w).OnTarget ph := fun c i m w =>
    onTarget.gated.congr rfl rfl rfl rfl rfl fun _ => rfl
  -- past the warm-up, a cycle that has read its inputs captures nothing
  have captured : ∀ c i m w, (s.reading c i m w).captureWarmup.OnTarget ph := by
    intro c i m w mode unfinished
    rw [captureWarmup_task] at mode unfinished
    refine (read c i m w mode unfinished).imp (fun start => ?_) fun ⟨past, same⟩ => ?_
    · rw [AtStart, captureWarmup_task]
      exact start
    · rw [captureWarmup_of_inited past.inited]
      exact ⟨past, same⟩
  cases course ran with
  | unread c i m w => exact read c i m w
  | warmup _ c i m w i' asked move torque steps prepared message warming held =>
      subst prepared
      intro mode unfinished
      refine .inl ((captured c i m w mode unfinished).resolve_right ?_)
      exact fun still => still.1.past warming
  | unmapped c i m w => exact captured c i m w
  | thrown c i m w prepared message warm run =>
      subst prepared
      obtain rfl := phase_throws run
      intro mode
      refine onTarget_of_throws (captured c i m w) (fun start => through ⟨?_, rfl, mode⟩) mode
      rw [AtStart, captureWarmup_task] at start
      exact start
  | control c i m w i' torque steps prepared message warm run reads mapped source =>
      subst source
      intro mode
      have executes : s.Executes ph.cmd given := by
        rw [Executes, ran]
        exact ⟨rfl, warm, mode⟩
      have after := onTarget_of_executes executes
      rw [ran] at after
      exact after mode

/-! ## In every run -/

/-- A throw at the start stands until an update runs the phase to its end. -/
theorem StartThrew.concat {ph : PolicyPhase} {t : MoveCatersianImpWithGripper K}
    {past : List (Event K)} {e : Event K} (threw : StartThrew ph t past) (stays : e.KeepsActive)
    (short : ∀ given, e = .update given → ¬ (run step t past).Tracks ph given) :
    StartThrew ph t (past ++ [e]) := by
  obtain ⟨pre, given, post, rfl, began, throws, since⟩ := threw
  rw [run_append, run_cons] at short
  refine ⟨pre, given, post ++ [e], by simp, began, throws, ?_⟩
  rw [along_append]
  exact ⟨since, ⟨stays, short⟩, trivial⟩

/-- **The reference past the start of a phase.**  In every run, an active controller is at the
start of its unfinished phase or past it with the reference at the target, unless the start
threw. -/
theorem onTarget_run (ph : PolicyPhase) (params : Params K) {es : List (Event K)}
    (active : (run step (constructed params) es).services.lifecycle = .active) :
    OnTarget ph (run step (constructed params) es) ∨ StartThrew ph (constructed params) es := by
  induction es using List.reverseRecOn with
  | nil => cases active
  | append_singleton es e ih =>
      rw [run_append, run_cons, run_nil] at active ⊢
      by_cases running : (run step (constructed params) es).services.lifecycle = .active
      · have stays : e.KeepsActive := by
          cases e with
          | deactivate =>
              rw [step, if_pos running] at active
              cases active
          | _ => trivial
        rcases step_active running stays with ⟨given, rfl, eq⟩ | ⟨other, quiet⟩
        · rw [eq]
          by_cases tracks : (run step (constructed params) es).Tracks ph given
          · exact .inl (onTarget_of_executes tracks.1)
          · by_cases throws : (run step (constructed params) es).ThrowsAtStart ph given
            · exact .inr ⟨es, given, [], rfl, running, throws, trivial⟩
            · have short : ∀ given', Event.update given = .update given' →
                  ¬ (run step (constructed params) es).Tracks ph given' := by
                rintro given' ⟨⟩
                exact tracks
              exact (ih running).imp (fun onTarget => onTarget.update throws)
                fun threw => threw.concat stays short
        · refine (ih running).imp (fun onTarget => ?_) fun threw =>
            threw.concat stays fun given same => ?_
          · exact onTarget.congr quiet.params quiet.warmup quiet.refs quiet.lastCmd
              quiet.elapsedTime quiet.finished
          · exact absurd same (other given)
      · -- an activation forgets the last mode
        obtain ⟨given, rfl, inactive, success⟩ := activates_of_active running active
        refine .inl fun mode => ?_
        rw [(justActivated inactive success).lastCmd] at mode
        cases ph <;> cases mode

/-! ## Between the two updates -/

/-- What an update of a phase leaves for the next one. -/
structure Settled (ph : PolicyPhase) (s : MoveCatersianImpWithGripper K) : Prop where
  active : s.services.lifecycle = .active
  mode : s.task.lastCmd = ph.cmd

theorem Belongs.after {ph : PolicyPhase} {s : MoveCatersianImpWithGripper K} {given : Cycle K}
    (active : s.services.lifecycle = .active) (belongs : s.Belongs ph given) :
    Settled ph (s.step (.update given)) := by
  have updated : s.step (.update given) = (s.update given).2 := if_pos active
  refine ⟨active_step active trivial, ?_⟩
  rw [updated]
  exact belongs.2.1

/-- The other events of the activation keep it. -/
theorem Settled.step {ph : PolicyPhase} {s : MoveCatersianImpWithGripper K} {e : Event K}
    (settled : Settled ph s) (between : e.KeepsActive ∧ ∀ given, e ≠ .update given) :
    Settled ph (s.step e) := by
  rcases step_active settled.active between.1 with ⟨given, same, -⟩ | ⟨-, quiet⟩
  · exact absurd same (between.2 given)
  · exact ⟨active_step settled.active between.1, quiet.lastCmd.trans settled.mode⟩

theorem settled_run {ph : PolicyPhase} {s : MoveCatersianImpWithGripper K} {es : List (Event K)}
    (settled : Settled ph s) (between : ∀ e ∈ es, e.KeepsActive ∧ ∀ given, e ≠ .update given) :
    Settled ph (run step s es) :=
  run_invariant step (fun _ _ between settled => settled.step between) between settled

/-- A later update in the mode the earlier one left, past the start of its phase, begins with
the reference at the target. -/
theorem Belongs.begun {ph : PolicyPhase} {s : MoveCatersianImpWithGripper K} {given : Cycle K}
    (belongs : s.Belongs ph given) (mode : s.task.lastCmd = ph.cmd) (onTarget : s.OnTarget ph)
    (past : ¬ s.AtStart) :
    (s.begun given).refs.qPolicyTarget = s.refs.qDes ∧ (s.begun given).params = s.params := by
  have unfinished := belongs.2.2
  obtain ⟨c, i, m, w, u, frame⟩ := prepare_frame given s
  rw [gated_of_update_lastCmd (belongs.2.1.trans mode.symm)] at frame
  have later : ¬ (s.prepare given).2.AtStart := by
    rw [frame]
    exact past
  rw [MoveCatersianImpWithGripper.begun, beginPolicy, if_neg later, frame] at unfinished ⊢
  have unfinished' : s.task.finished ph.cmd = false := by
    cases ph <;> exact unfinished
  exact ⟨((onTarget mode unfinished').resolve_left past).2.symm, rfl⟩

end

/-! ## The rate -/

section

variable {K : Type} [ScaledArith K]

theorem stepped_of_clamped {s : MoveCatersianImpWithGripper K} {given : Cycle K} {i : Fin 7}
    (finite : (maxStep s.params (s.policyDt given) i).isFinite = true)
    (clamped : ∃ d, -maxStep s.params (s.policyDt given) i ≤ d ∧
      d ≤ maxStep s.params (s.policyDt given) i ∧ (s.update given).2.refs.qDes i =
        Double.clamp (s.refs.qDes i + d) (s.params.lower (arm i)) (s.params.upper (arm i))) :
    s.Stepped given i := by
  refine ⟨clamped, fun low high => ?_⟩
  obtain ⟨d, above, below, moved⟩ := clamped
  rw [moved]
  generalize maxStep s.params (s.policyDt given) i = bound at finite above below
  cases bound with
  | fin m =>
      obtain ⟨x, rfl⟩ := Double.exists_fin (x := -m) above below
      have number := (Double.le_number low).2
      have ordered := Double.le_trans low high
      have lower : s.refs.qDes i - .fin m ≤ s.refs.qDes i + .fin x :=
        Double.add_fin_mono number (Double.fin_le_fin.1 above)
      have upper : s.refs.qDes i + .fin x ≤ s.refs.qDes i + .fin m :=
        Double.add_fin_mono number (Double.fin_le_fin.1 below)
      have target := (Double.le_number lower).2
      -- the bound is not negative, so the joint itself lies within it
      have span : 0 ≤ m := by
        have between : -m ≤ m := (Double.fin_le_fin.1 above).trans (Double.fin_le_fin.1 below)
        by_contra negative
        have flipped := SignedArith.neg_le_neg m 0 (not_le.1 negative).le
        rw [SignedArith.neg_zero] at flipped
        exact negative (flipped.trans between)
      have up : s.refs.qDes i ≤ s.refs.qDes i + .fin m := Double.le_add_fin number span
      have down : s.refs.qDes i - .fin m ≤ s.refs.qDes i := by
        have shrinks := SignedArith.neg_le_neg 0 m span
        rw [SignedArith.neg_zero] at shrinks
        have below := Double.add_fin_mono number shrinks
        rwa [Double.add_fin_zero] at below
      exact ⟨(Double.le_clamp_iff target ordered (Double.le_trans down high)).2 (.inl lower),
        (Double.clamp_le_iff target ordered (Double.le_trans low up)).2 (.inl upper)⟩
  | _ => cases finite

/-- An update past the start of its phase moves the reference by at most a step. -/
theorem Tracks.stepped {ph : PolicyPhase} {s : MoveCatersianImpWithGripper K} {given : Cycle K}
    (tracks : s.Tracks ph given) (target : (s.begun given).refs.qPolicyTarget = s.refs.qDes)
    (params : (s.begun given).params = s.params) :
    (s.Infers ph given → ∀ i, (maxStep s.params (s.policyDt given) i).isFinite = true →
      s.Stepped given i) ∧
    (¬ s.Infers ph given → (s.update given).2.refs.qDes = s.refs.qDes) := by
  constructor
  · intro infers i finite
    obtain ⟨action, output⟩ := infers.output
    refine stepped_of_clamped finite ⟨_, (step_le_maxStep s.params (action (arm i)) finite).1,
      (step_le_maxStep s.params (action (arm i)) finite).2, ?_⟩
    rw [infers.qDes output, policyTarget, rawTarget, target, params]
    rfl
  · intro idle
    rw [tracks.idle idle, target]

/-- **The rate bound of the policy phases.**  In every run, between two consecutive updates
of one unfinished phase: a later update that fails leaves the reference alone.  Past the
start of the phase, which no inference has thrown at since an update last ran the phase to
its end, the reference does not change without an inference, and with one each joint moves
by a step of at most `maxStep` and is then clamped to its limits. -/
theorem consecutive_rateBounded (params : Params K) (es : List (Event K)) :
    Consecutive RateBounded (constructed params) es := by
  rintro ph pre given mid given' post - between active first second
  have settled : Settled ph (run step (constructed params) (pre ++ .update given :: mid)) := by
    rw [run_append, run_cons]
    exact settled_run (first.after active) between
  refine ⟨update_qDes_of_failed second.1, fun past begun => ?_⟩
  have onTarget := (onTarget_run ph params settled.active).resolve_right begun
  obtain ⟨target, same⟩ := second.begun settled.mode onTarget past
  by_cases tracks : Tracks ph (run step (constructed params) (pre ++ .update given :: mid)) given'
  · exact tracks.stepped target same
  · have failed := fun ok => tracks (second.tracks ok)
    exact ⟨fun infers => absurd infers.1.1 failed, fun _ => update_qDes_of_failed second.1 failed⟩

end

/-- The first cycle of the concrete robot in its phase, with an inference that throws. -/
def fr3Thrown : Cycle ℚ := { fr3Cycle 1 1 1 with action := .none }

/-- A joint that starts outside its limits is brought inside in one step, a phase whose
accumulated time is still zero starts over from the measured joints, and the update after
one that threw at the start copies the measured joints without an inference. -/
theorem not_consecutive_rateHolds :
    (¬ Consecutive RateHolds ((fr3Inactive fr3Scalars).step (.activate (fr3Activation 3)))
      [.taskCmd "move_pose_1", .update (fr3Cycle (1 / 1000) 3 1),
        .update (fr3Cycle (1 / 10) 3 1)]) ∧
    (¬ Consecutive RateHolds ((fr3Inactive fr3Scalars).step (.activate (fr3Activation 0)))
      [.taskCmd "move_pose_1", .update (fr3Cycle 0 0 1), .update (fr3Cycle 0 1 1)]) ∧
    ¬ Consecutive RateHolds ((fr3Inactive fr3Scalars).step (.activate (fr3Activation 1)))
      [.taskCmd "move_pose_1", .update fr3Thrown, .update (fr3Cycle (1 / 1000) 1 1)] := by
  refine ⟨fun holds => ?_, fun holds => ?_, fun holds => ?_⟩
  · have rate := (holds .pose1 [.taskCmd "move_pose_1"] (fr3Cycle (1 / 1000) 3 1) []
      (fr3Cycle (1 / 10) 3 1) [] rfl (by simp) (by decide +kernel) (by decide +kernel)
      (by decide +kernel)).1 (by decide +kernel) 1
    exact absurd rate (by decide +kernel)
  · have still := (holds .pose1 [.taskCmd "move_pose_1"] (fr3Cycle 0 0 1) []
      (fr3Cycle 0 1 1) [] rfl (by simp) (by decide +kernel) (by decide +kernel)
      (by decide +kernel)).2 (by decide +kernel)
    exact absurd (congrFun still 0) (by decide +kernel)
  · have still := (holds .pose1 [.taskCmd "move_pose_1"] fr3Thrown []
      (fr3Cycle (1 / 1000) 1 1) [] rfl (by simp) (by decide +kernel) (by decide +kernel)
      (by decide +kernel)).2 (by decide +kernel)
    exact absurd (congrFun still 0) (by decide +kernel)

end MoveCatersianImpWithGripper

end FrankaRos.Controller
