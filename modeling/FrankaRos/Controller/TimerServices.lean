/-
# Controller.TimerServices -- the timers an active controller relies on

The gripper timer sends the goals that `update` requests, the housekeeping timer
serves its save requests.  `on_configure` creates both, `on_deactivate` destroys
both, and `on_activate` creates neither, so they exist whenever the controller is
active exactly when no activation follows a deactivation without a configuration
in between (`timersAvailable_iff`).
-/
import FrankaRos.Controller.Course
import FrankaRos.Controller.Lifecycle

namespace FrankaRos.Controller

open FrankaRos.Theory

set_option autoImplicit false

set_option linter.unusedSectionVars false

namespace MoveCatersianImpWithGripper

variable {K : Type} [MachineArith K]

/-- The next callbacks of the timers serve whatever requests stand; a gripper
tick serves one of them. -/
def RequestsServed (s : MoveCatersianImpWithGripper K) : Prop :=
  let ticked := (s.step (.gripperTimer true true)).step (.gripperTimer true true)
  ticked.gripper.move.requestSend = false ∧ ticked.gripper.grasp.requestSend = false ∧
    (s.step .housekeeping).log.saveRequested = false

/-- Whenever the controller is active, both timers exist and serve its requests. -/
def TimersAvailable (s : MoveCatersianImpWithGripper K) : Prop :=
  s.services.lifecycle = .active →
    (s.services.gripperTimer = true ∧ s.services.housekeepingTimer = true) ∧ s.RequestsServed

/-- The event is a successful configuration. -/
def Configures (s : MoveCatersianImpWithGripper K) (e : Event K) : Prop :=
  ∃ given, e = .configure given ∧ s.services.lifecycle = .unconfigured ∧
    (s.onConfigure given).1 = .success

/-- The event is a successful activation. -/
def Activates (s : MoveCatersianImpWithGripper K) (e : Event K) : Prop :=
  ∃ given, e = .activate given ∧ s.services.lifecycle = .inactive ∧
    (s.onActivate given).1 = .success

/-- No activation follows a deactivation without a configuration in between. -/
def NoBareReactivation (s : MoveCatersianImpWithGripper K) (es : List (Event K)) : Prop :=
  ∀ pre mid e post, es = pre ++ .deactivate :: (mid ++ e :: post) →
    (run step s pre).services.lifecycle = .active →
    Activates (run step s (pre ++ .deactivate :: mid)) e →
    ¬ Along step (fun s e => ¬ Configures s e) (step (run step s pre) .deactivate) mid

/-! ## What an event does to the services -/

theorem services_activate (given : Activation K) (s : MoveCatersianImpWithGripper K) :
    (s.onActivate given).2.services = s.services := by
  obtain ⟨refs, kinematics, i, m, warmup, task, gripper, frame, -⟩ := onActivate_frame given s
  rw [frame]

/-- The ways in which an event can leave the services. -/
inductive ServiceStep (s : MoveCatersianImpWithGripper K) (e : Event K) : Services → Prop
  | kept : ServiceStep s e s.services
  | failed (v : Services) (finalized : v.lifecycle = .finalized) : ServiceStep s e v
  | configured (configures : Configures s e) : ServiceStep s e ⟨.inactive, true, true, true⟩
  | activated (activates : Activates s e) :
      ServiceStep s e { s.services with lifecycle := .active }
  | deactivated (event : e = .deactivate) (active : s.services.lifecycle = .active) :
      ServiceStep s e ⟨.inactive, s.services.taskCmdSub, false, false⟩
  | cleaned : ServiceStep s e { s.services with lifecycle := .unconfigured }

theorem services_step (s : MoveCatersianImpWithGripper K) (e : Event K) :
    ServiceStep s e (s.step e).services := by
  cases e with
  | configure given =>
      simp only [step]
      split
      · rename_i unconfigured
        rcases onConfigure_cases given s with eq | ⟨p, eq⟩
        · rw [eq]
          exact .failed _ rfl
        · have success : (s.onConfigure given).1 = .success := by rw [eq]
          rw [eq]
          exact .configured ⟨given, rfl, unconfigured, success⟩
      · exact .kept
  | activate given =>
      have services := services_activate given s
      simp only [step]
      split
      · rename_i inactive
        cases eq : s.onActivate given with
        | mk result s' =>
            rw [eq] at services
            cases result with
            | success =>
                have activates : Activates s (.activate given) :=
                  ⟨given, rfl, inactive, by rw [eq]⟩
                have after := ServiceStep.activated activates
                rw [← services] at after
                exact after
            | error => exact .failed _ rfl
      · exact .kept
  | deactivate =>
      simp only [step]
      split
      · rename_i active
        exact .deactivated rfl active
      · exact .kept
  | cleanup =>
      simp only [step]
      split
      · exact .cleaned
      · exact .kept
  | update given =>
      simp only [step]
      split
      · rw [(update_kept given s).services, gated_services]
        exact .kept
      · exact .kept
  | taskCmd | gripperTimer | housekeeping | graspResponse | graspResult | moveResponse |
    moveResult =>
      rw [(quiet_step (by exact trivial)).services]
      exact .kept

/-! ## Missing timers -/

theorem gripperTimer_serves_move (s : MoveCatersianImpWithGripper K) :
    (s.gripperTimer true true).gripper.move.requestSend = false := by
  unfold gripperTimer
  simp only [Bool.true_eq_false, if_false]
  split
  · split <;> rfl
  · rename_i idle
    rw [Bool.not_eq_true] at idle
    repeat' split
    all_goals exact idle

theorem gripperTimer_serves_grasp {s : MoveCatersianImpWithGripper K}
    (idle : s.gripper.move.requestSend = false) :
    (s.gripperTimer true true).gripper.grasp.requestSend = false := by
  unfold gripperTimer
  simp only [idle, Bool.false_eq_true, Bool.true_eq_false, if_false]
  split
  · assumption
  · split <;> rfl

/-- Two timers that exist serve every request. -/
theorem requestsServed {s : MoveCatersianImpWithGripper K}
    (gripper : s.services.gripperTimer = true) (housekeeping : s.services.housekeepingTimer = true) :
    s.RequestsServed := by
  have first : s.step (.gripperTimer true true) = s.gripperTimer true true := if_pos gripper
  have still : (s.gripperTimer true true).services.gripperTimer = true := by
    rw [(quiet_gripperTimer true true s).services, gripper]
  have second : (s.gripperTimer true true).step (.gripperTimer true true) =
      (s.gripperTimer true true).gripperTimer true true := if_pos still
  have saved : s.step .housekeeping = s.housekeeping := if_pos housekeeping
  unfold RequestsServed
  rw [first, second, saved]
  refine ⟨gripperTimer_serves_move _, ?_, ?_⟩
  · exact gripperTimer_serves_grasp (gripperTimer_serves_move s)
  · unfold MoveCatersianImpWithGripper.housekeeping saveLogToTxt
    cases requested : s.log.saveRequested with
    | true =>
        simp only [if_true]
        split <;> rfl
    | false => exact requested

/-- A timer is missing. -/
def TimerMissing (v : Services) : Prop := v.gripperTimer = false ∨ v.housekeepingTimer = false

theorem timersAvailable_iff_not_missing (s : MoveCatersianImpWithGripper K) :
    s.TimersAvailable ↔ ¬ (s.services.lifecycle = .active ∧ TimerMissing s.services) := by
  constructor
  · rintro available ⟨active, missing⟩
    obtain ⟨⟨gripper, housekeeping⟩, -⟩ := available active
    rcases missing with gone | gone
    · rw [gripper] at gone
      cases gone
    · rw [housekeeping] at gone
      cases gone
  · intro present active
    obtain ⟨gripper, housekeeping⟩ := not_or.1 fun missing => present ⟨active, missing⟩
    rw [Bool.not_eq_false] at gripper housekeeping
    exact ⟨⟨gripper, housekeeping⟩, requestsServed gripper housekeeping⟩

/-- Only a configuration brings a missing timer back. -/
theorem timerMissing_step {s : MoveCatersianImpWithGripper K} {e : Event K}
    (missing : TimerMissing s.services) (bare : ¬ Configures s e)
    (alive : (s.step e).services.lifecycle ≠ .finalized) : TimerMissing (s.step e).services := by
  have step := services_step s e
  generalize (s.step e).services = v at step alive ⊢
  cases step with
  | kept => exact missing
  | failed _ finalized => exact absurd finalized alive
  | configured configures => exact absurd configures bare
  | activated => exact missing
  | deactivated => exact .inl rfl
  | cleaned => exact missing

theorem timerMissing_run {s : MoveCatersianImpWithGripper K} {es : List (Event K)}
    (missing : TimerMissing s.services) (bare : Along step (fun s e => ¬ Configures s e) s es)
    (alive : (run step s es).services.lifecycle ≠ .finalized) :
    TimerMissing (run step s es).services := by
  refine (run_invariant_along step
    (I := fun s => TimerMissing s.services ∨ s.services.lifecycle = .finalized)
    (fun s e bare missing => ?_) bare (.inl missing)).resolve_right alive
  by_cases final : (s.step e).services.lifecycle = .finalized
  · exact .inr final
  · refine .inl (timerMissing_step (missing.resolve_right fun finalized => ?_) bare final)
    exact final (finalized_step e finalized)

/-- Configured, with a timer missing. -/
def Unserved (s : MoveCatersianImpWithGripper K) : Prop :=
  TimerMissing s.services ∧ (s.services.lifecycle = .inactive ∨ s.services.lifecycle = .active)

/-- Only a deactivation leaves a configured controller without its timers. -/
theorem deactivates_of_unserved {s : MoveCatersianImpWithGripper K} {e : Event K}
    (served : ¬ s.Unserved) (unserved : (s.step e).Unserved) :
    e = .deactivate ∧ s.services.lifecycle = .active := by
  have step := services_step s e
  unfold Unserved at served unserved
  generalize (s.step e).services = v at step unserved
  obtain ⟨missing, configured⟩ := unserved
  cases step with
  | kept => exact absurd ⟨missing, configured⟩ served
  | failed _ finalized =>
      rw [finalized] at configured
      rcases configured with same | same <;> cases same
  | configured => rcases missing with gone | gone <;> cases gone
  | activated activates =>
      obtain ⟨given, -, inactive, -⟩ := activates
      exact absurd ⟨missing, .inl inactive⟩ served
  | deactivated event active => exact ⟨event, active⟩
  | cleaned => rcases configured with same | same <;> cases same

/-- Only a successful activation activates. -/
theorem activates_of_active {s : MoveCatersianImpWithGripper K} {e : Event K}
    (idle : s.services.lifecycle ≠ .active) (active : (s.step e).services.lifecycle = .active) :
    Activates s e := by
  have step := services_step s e
  generalize (s.step e).services = v at step active
  cases step with
  | kept => exact absurd active idle
  | failed _ finalized =>
      rw [finalized] at active
      cases active
  | activated activates => exact activates
  | configured | deactivated | cleaned => cases active

/-! ## When the timers are there -/

/-- **The timers of an active controller.**  Both exist, and serve every request,
in every active state of a run if and only if no activation of the run follows a
deactivation without a configuration in between. -/
theorem timersAvailable_iff (params : Params K) (es : List (Event K)) :
    Throughout step TimersAvailable (constructed params) es ↔
      NoBareReactivation (constructed params) es := by
  constructor
  · rintro available pre mid e post rfl active activates bare
    have gone : TimerMissing ((run step (constructed params) pre).step .deactivate).services := by
      rw [step, if_pos active]
      exact .inl rfl
    rw [run_append, run_cons] at activates
    obtain ⟨given, rfl, inactive, success⟩ := activates
    have missing := timerMissing_run gone bare (by rw [inactive]; decide)
    have now := (throughout_iff_split step _ _ _).1 available
      (pre ++ .deactivate :: (mid ++ [.activate given])) post (by simp)
    rw [run_append, run_cons, run_append, run_cons, run_nil, step_activate inactive success,
      timersAvailable_iff_not_missing] at now
    refine now ⟨rfl, ?_⟩
    show TimerMissing { ((run step _ mid).onActivate given).2.services with lifecycle := .active }
    rw [services_activate]
    exact missing
  · intro noBare
    rw [throughout_iff_split]
    rintro whole post rfl
    rw [timersAvailable_iff_not_missing]
    rintro ⟨active, missing⟩
    -- the event that lost the timers for good, and the activation that relies on them
    obtain ⟨pre, e, es, rfl, served, unserved⟩ := exists_last_rise step Unserved
      (s := constructed params) (fun start => by rcases start.2 with same | same <;> cases same)
      ⟨missing, .inr active⟩
    obtain ⟨rfl, running⟩ := deactivates_of_unserved served unserved.first
    rw [run_append, run_cons] at active
    obtain ⟨mid, e', after, rfl, idle, held⟩ := exists_last_rise step
      (fun s => s.services.lifecycle = .active)
      (s := (run step (constructed params) pre).step .deactivate)
      (by rw [step, if_pos running]; exact Lifecycle.noConfusion) active
    refine noBare pre mid e' (after ++ post) (by simp) running ?_ ?_
    · rw [run_append, run_cons]
      exact activates_of_active idle held.first
    · rw [along_iff_split]
      rintro before e'' behind rfl ⟨given, -, unconfigured, -⟩
      have configured := ((throughout_iff_split step _ _ _).1 unserved before
        (e'' :: behind ++ e' :: after) (by simp)).2
      rw [unconfigured] at configured
      rcases configured with same | same <;> cases same

/-- Two activations of the concrete robot. -/
def activatedTwice : List (Event ℚ) :=
  [.configure (fr3Configuration fr3Scalars), .activate (fr3Activation 0), .deactivate,
    .activate (fr3Activation 0)]

theorem activatedTwice_lacks_timers :
    ¬ Throughout step TimersAvailable (constructed fr3Params) activatedTwice := by
  intro available
  have active : (run step (constructed fr3Params) activatedTwice).services.lifecycle = .active := by
    decide +kernel
  obtain ⟨⟨gripper, -⟩, -⟩ := Throughout.last step available active
  exact absurd gripper (by decide +kernel)

end MoveCatersianImpWithGripper

end FrankaRos.Controller
