/-
# Controller.Course -- the ways an update can go

`Course given s r s'` lists the ways in which `update` can take `s` to `s'` with
result `r`: it fails to read its inputs, it holds the warm-up pose, its command
interfaces are not all there, the policy throws, or it executes its mode.  Every
statement about an update is a case analysis on its course (`course`), with
groups of members that nothing below reads left as arbitrary values.

`Kept` is what every one of them leaves alone once the gate has run.
-/
import FrankaRos.Controller.Update

namespace FrankaRos.Controller

open FrankaRos.Theory

set_option autoImplicit false

set_option linter.unusedSectionVars false

namespace MoveCatersianImpWithGripper

variable {K : Type} [MachineArith K]

/-- The state after the gate and the reads of a cycle. -/
def reading (s : MoveCatersianImpWithGripper K) (c : Counters K) (i : Interfaces K)
    (m : Measured K) (w : WrenchWindow K) : MoveCatersianImpWithGripper K :=
  { s.gated with counters := c, interfaces := i, measured := m, wrench := w }

/-- The joint positions a cycle reads. -/
def positions (s : MoveCatersianImpWithGripper K) (given : Cycle K) : Vector7d K :=
  (s.readState given.stateValues).2.measured.q

/-- Reading through a map that is there already. -/
def Reads (given : Cycle K) (s : MoveCatersianImpWithGripper K) (i : Interfaces K)
    (m : Measured K) : Prop :=
  s.interfaces.stateMap.isSome = true →
    i.stateMap = s.interfaces.stateMap ∧ m.q = s.positions given

inductive Course (given : Cycle K) (s : MoveCatersianImpWithGripper K) :
    UpdateResult → MoveCatersianImpWithGripper K → Prop
  /-- The joint state or the robot state message could not be read. -/
  | unread (c : Counters K) (i : Interfaces K) (m : Measured K) (w : WrenchWindow K)
      (stale : given.robotState = .none ∨ s.interfaces.stateMap = .none)
      (reads : Reads given s i m) : Course given s .error (s.reading c i m w)
  /-- The warm-up branch, whether or not its command interfaces are all there. -/
  | warmup (r : UpdateResult) (c : Counters K) (i : Interfaces K) (m : Measured K)
      (w : WrenchWindow K) (i' : Interfaces K) (asked : Bool) (move : GripperAction)
      (torque : Torque K) (steps : Nat) {s₁ : MoveCatersianImpWithGripper K}
      (prepared : s₁ = (s.reading c i m w).captureWarmup)
      (message : given.robotState.isSome = true) (warming : s₁.Warming)
      (held : (s.prepare given).2.Warming) (reads : Reads given s i m)
      (mapped : i'.stateMap = i.stateMap) :
      Course given s r { s₁ with
        warmup := { s₁.warmup with elapsed := s₁.warmup.elapsed + given.dt }
        refs := { s₁.refs with qDes := s₁.warmup.qHold }
        gripper := { s₁.gripper with warmupOpenRequested := asked, move := move }
        interfaces := i', torque := torque
        log := { s₁.log with stepsWritten := steps } }
  /-- The command interfaces of the control branch are not all there. -/
  | unmapped (c : Counters K) (i : Interfaces K) (m : Measured K) (w : WrenchWindow K)
      (message : given.robotState.isSome = true)
      (past : ¬ (s.reading c i m w).captureWarmup.Warming) (reads : Reads given s i m) :
      Course given s .error (s.reading c i m w).captureWarmup
  /-- The inference of a policy phase throws. -/
  | thrown (c : Counters K) (i : Interfaces K) (m : Measured K) (w : WrenchWindow K)
      {s₁ s₂ : MoveCatersianImpWithGripper K}
      (prepared : s₁ = (s.reading c i m w).captureWarmup)
      (message : given.robotState.isSome = true) (past : ¬ s₁.Warming)
      (run : s₁.phase given = (false, s₂)) (reads : Reads given s i m) :
      Course given s .escaped s₂
  /-- The control branch. -/
  | control (c : Counters K) (i : Interfaces K) (m : Measured K) (w : WrenchWindow K)
      (i' : Interfaces K) (torque : Torque K) (steps : Nat)
      {s₁ s₂ : MoveCatersianImpWithGripper K}
      (prepared : s₁ = (s.reading c i m w).captureWarmup)
      (message : given.robotState.isSome = true) (past : ¬ s₁.Warming)
      (run : s₁.phase given = (true, s₂)) (reads : Reads given s i m)
      (mapped : i'.stateMap = i.stateMap)
      (source : s₁ = { (s.prepare given).2 with counters := c, interfaces := i }) :
      Course given s .ok { s₂ with
        interfaces := i', torque := torque, log := { s₂.log with stepsWritten := steps } }

/-! ## What a phase writes -/

theorem trackPolicy_elapsedTime (ph : PolicyPhase) (given : Cycle K)
    (s : MoveCatersianImpWithGripper K) :
    (s.trackPolicy ph given).task.elapsedTime = s.task.elapsedTime := by
  unfold trackPolicy
  simp only
  split
  · cases ph <;> rfl
  · rfl

theorem trackPolicy_refs (ph : PolicyPhase) (given : Cycle K) (s : MoveCatersianImpWithGripper K) :
    (s.trackPolicy ph given).refs =
      ph.setGoal s.refs.qPolicyTarget { s.refs with qDes := s.refs.qPolicyTarget } := by
  unfold trackPolicy
  simp only
  split <;> rfl

/-- The ways in which a policy phase goes on from its head. -/
inductive PolicyCourse (ph : PolicyPhase) (given : Cycle K) (s : MoveCatersianImpWithGripper K) :
    Bool → MoveCatersianImpWithGripper K → Prop
  | held (finished : s.task.finished ph.cmd = true) :
      PolicyCourse ph given s true (s.hold (ph.goal s.refs))
  | idle (unfinished : s.task.finished ph.cmd = false)
      (early : ¬ s.params.rlDt ≤ s.refs.rlTimer) :
      PolicyCourse ph given s true (s.trackPolicy ph given)
  | threw (unfinished : s.task.finished ph.cmd = false) (due : s.params.rlDt ≤ s.refs.rlTimer) :
      PolicyCourse ph given s false { s with refs := { s.refs with rlTimer := 0 } }
  | inferred (action : Fin 9 → Double K) (output : given.action = some action)
      (unfinished : s.task.finished ph.cmd = false) (due : s.params.rlDt ≤ s.refs.rlTimer) :
      PolicyCourse ph given s true (MoveCatersianImpWithGripper.trackPolicy ph given { s with
        refs := { s.refs with
          rlTimer := 0
          qPolicyTarget := policyTarget s.params s.refs.rlTimer action s.refs.qPolicyTarget } })

theorem policyCourse {ph : PolicyPhase} {given : Cycle K} {s s' : MoveCatersianImpWithGripper K}
    {done : Bool} (ran : s.policyPhase ph given = (done, s')) :
    PolicyCourse ph given (s.beginPolicy given) done s' := by
  unfold policyPhase at ran
  simp only at ran
  split at ran
  · rename_i finished
    obtain ⟨rfl, rfl⟩ := Prod.mk.inj ran
    exact .held finished
  · rename_i unfinished
    rw [Bool.not_eq_true] at unfinished
    unfold inferPolicy at ran
    by_cases due : (s.beginPolicy given).params.rlDt ≤ (s.beginPolicy given).refs.rlTimer
    · rw [if_pos due] at ran
      cases output : given.action with
      | none =>
          rw [output] at ran
          obtain ⟨rfl, rfl⟩ := Prod.mk.inj ran
          exact .threw unfinished due
      | some action =>
          rw [output] at ran
          obtain ⟨rfl, rfl⟩ := Prod.mk.inj ran
          exact .inferred action output unfinished due
    · rw [if_neg due] at ran
      obtain ⟨rfl, rfl⟩ := Prod.mk.inj ran
      exact .idle unfinished due

theorem trackPolicy_frame (ph : PolicyPhase) (given : Cycle K)
    (s : MoveCatersianImpWithGripper K) :
    ∃ refs task, s.trackPolicy ph given = { s with refs := refs, task := task } := by
  unfold trackPolicy
  simp only
  split
  · exact ⟨_, _, rfl⟩
  · exact ⟨_, _, rfl⟩

theorem policyPhase_frame (ph : PolicyPhase) (given : Cycle K)
    (s : MoveCatersianImpWithGripper K) :
    ∃ refs task, (s.policyPhase ph given).2 = { s with refs := refs, task := task } := by
  rcases ran : s.policyPhase ph given with ⟨done, s'⟩
  cases policyCourse ran with
  | held => exact ⟨_, _, rfl⟩
  | idle => exact trackPolicy_frame ph given (s.beginPolicy given)
  | threw => exact ⟨_, _, rfl⟩
  | inferred => exact trackPolicy_frame ph given _

theorem grasp_frame (given : Cycle K) (s : MoveCatersianImpWithGripper K) :
    ∃ refs task gripper, s.grasp given =
      { s with refs := refs, task := task, gripper := gripper } := by
  unfold grasp graspExit
  repeat' split
  all_goals exact ⟨_, _, _, rfl⟩

/-- A phase writes to the references, the task and the gripper flags. -/
theorem phase_frame (given : Cycle K) (s : MoveCatersianImpWithGripper K) :
    ∃ refs task gripper, (s.phase given).2 =
      { s with refs := refs, task := task, gripper := gripper } := by
  unfold phase
  split
  · obtain ⟨refs, task, frame⟩ := policyPhase_frame .pose1 given s
    exact ⟨refs, task, s.gripper, frame⟩
  · exact grasp_frame given s
  · obtain ⟨refs, task, frame⟩ := policyPhase_frame .pose2 given s
    exact ⟨refs, task, s.gripper, frame⟩
  · exact ⟨s.refs, s.task, s.gripper, rfl⟩
  · exact ⟨s.refs, s.task, s.gripper, rfl⟩

theorem captureWarmup_frame (s : MoveCatersianImpWithGripper K) :
    ∃ warmup, s.captureWarmup = { s with warmup := warmup } := by
  unfold captureWarmup
  split
  · exact ⟨_, rfl⟩
  · exact ⟨s.warmup, rfl⟩

theorem captureWarmup_task (s : MoveCatersianImpWithGripper K) : s.captureWarmup.task = s.task := by
  obtain ⟨warmup, frame⟩ := captureWarmup_frame s
  rw [frame]

theorem captureWarmup_refs (s : MoveCatersianImpWithGripper K) : s.captureWarmup.refs = s.refs := by
  obtain ⟨warmup, frame⟩ := captureWarmup_frame s
  rw [frame]

/-! ## Every update takes one of them -/

/-- What the reads of a cycle come to. -/
theorem prepare_cases (given : Cycle K) (s : MoveCatersianImpWithGripper K) :
    ∃ c i m w, Reads given s i m ∧
      ((s.prepare given = (false, s.reading c i m w) ∧
        (given.robotState = .none ∨ s.interfaces.stateMap = .none)) ∨
      (s.prepare given = (true, (s.reading c i m w).captureWarmup) ∧
        given.robotState.isSome = true)) := by
  unfold prepare readState
  simp only [gated_interfaces]
  split
  · rename_i s' unread
    split at unread
    · rename_i unmapped
      obtain ⟨-, rfl⟩ := Prod.mk.inj unread
      have missing : s.interfaces.stateMap = .none := by
        cases map : s.interfaces.stateMap with
        | none => rfl
        | some m => simp [map] at unmapped
      refine ⟨_, s.interfaces, s.gated.measured, s.gated.wrench, fun mapped => ?_,
        .inl ⟨rfl, .inr missing⟩⟩
      rw [missing] at mapped
      cases mapped
    · cases (Prod.mk.inj unread).1
  · rename_i s' read
    split at read
    · cases (Prod.mk.inj read).1
    · rename_i map built
      obtain ⟨-, rfl⟩ := Prod.mk.inj read
      have reads : Reads given s { s.interfaces with stateMap := some map }
          ⟨fun j => given.stateValues (map j).pos, fun j => given.stateValues (map j).vel,
            fun j => given.stateValues (map j).eff⟩ := by
        intro mapped
        obtain ⟨known, eq⟩ := Option.isSome_iff_exists.1 mapped
        rw [eq] at built
        obtain rfl := Option.some.inj built
        exact ⟨eq.symm, by simp [positions, readState, eq]⟩
      cases given.robotState with
      | none => exact ⟨_, _, _, s.gated.wrench, reads, .inl ⟨rfl, .inl rfl⟩⟩
      | some sample => exact ⟨_, _, _, _, reads, .inr ⟨rfl, rfl⟩⟩

/-- What the reads of a cycle leave alone once the gate has run. -/
theorem prepare_frame (given : Cycle K) (s : MoveCatersianImpWithGripper K) :
    ∃ c i m w u, (s.prepare given).2 = { s.gated with
      counters := c, interfaces := i, measured := m, wrench := w, warmup := u } := by
  obtain ⟨c, i, m, w, -, ⟨prepared, -⟩ | ⟨prepared, -⟩⟩ := s.prepare_cases given
  · exact ⟨c, i, m, w, s.gated.warmup, by rw [prepared]; rfl⟩
  · obtain ⟨u, captured⟩ := captureWarmup_frame (s.reading c i m w)
    exact ⟨c, i, m, w, u, by rw [prepared, captured]; rfl⟩

theorem warmupCycle_frame (given : Cycle K) (s : MoveCatersianImpWithGripper K) :
    ∃ r i asked move torque, s.warmupCycle given = (r, { s with
        warmup := { s.warmup with elapsed := s.warmup.elapsed + given.dt }
        refs := { s.refs with qDes := s.warmup.qHold }
        gripper := { s.gripper with warmupOpenRequested := asked, move := move }
        interfaces := i, torque := torque }) ∧
      i.stateMap = s.interfaces.stateMap := by
  unfold warmupCycle
  simp only
  split
  · split
    · exact ⟨_, _, _, _, _, rfl, rfl⟩
    · exact ⟨_, _, s.gripper.warmupOpenRequested, s.gripper.move, _, rfl, rfl⟩
  · split
    · exact ⟨_, _, _, _, _, rfl, rfl⟩
    · exact ⟨_, _, s.gripper.warmupOpenRequested, s.gripper.move, _, rfl, rfl⟩

theorem appendLogSample_frame (s : MoveCatersianImpWithGripper K) :
    ∃ steps, s.appendLogSample = { s with log := { s.log with stepsWritten := steps } } := by
  unfold appendLogSample
  split
  · exact ⟨_, rfl⟩
  · exact ⟨s.log.stepsWritten, rfl⟩

theorem captureWarmup_interfaces (s : MoveCatersianImpWithGripper K) (c : Counters K)
    (i : Interfaces K) (m : Measured K) (w : WrenchWindow K) :
    (s.reading c i m w).captureWarmup.interfaces = i := by
  obtain ⟨warmup, captured⟩ := captureWarmup_frame (s.reading c i m w)
  rw [captured]
  rfl

/-- Capturing the warm-up pose does not look at the counters and the interfaces. -/
theorem captureWarmup_reading (s : MoveCatersianImpWithGripper K) (c c' : Counters K)
    (i i' : Interfaces K) (m : Measured K) (w : WrenchWindow K) :
    { (s.reading c i m w).captureWarmup with counters := c', interfaces := i' } =
      (s.reading c' i' m w).captureWarmup := by
  unfold captureWarmup reading
  simp only
  split
  · rfl
  · rfl

theorem controlCycle_course {given : Cycle K} {s : MoveCatersianImpWithGripper K}
    {c : Counters K} {i : Interfaces K} {m : Measured K} {w : WrenchWindow K}
    (message : given.robotState.isSome = true) (reads : Reads given s i m)
    (source : (s.prepare given).2 = (s.reading c i m w).captureWarmup)
    (past : ¬ (s.reading c i m w).captureWarmup.Warming) {r : UpdateResult}
    {s' : MoveCatersianImpWithGripper K}
    (ran : (s.reading c i m w).captureWarmup.controlCycle given = (r, s')) :
    (r = .ok ∧ Course given s .ok s'.appendLogSample) ∨ (r ≠ .ok ∧ Course given s r s') := by
  have past' : ∀ c' i', ¬ (s.reading c' i' m w).captureWarmup.Warming := by
    intro c' i'
    rw [← captureWarmup_reading s c c' i i' m w]
    exact past
  unfold controlCycle at ran
  simp only at ran
  split at ran
  · obtain ⟨rfl, rfl⟩ := Prod.mk.inj ran
    refine .inr ⟨by decide, ?_⟩
    have same := captureWarmup_reading s c { (s.reading c i m w).captureWarmup.counters with
      nTorque := (s.reading c i m w).captureWarmup.counters.nTorque + 1 } i
      (s.reading c i m w).captureWarmup.interfaces m w
    rw [same, captureWarmup_interfaces]
    exact .unmapped _ _ _ _ message (past' _ _) reads
  · rename_i map built
    rw [captureWarmup_reading s c _ i _ m w, captureWarmup_interfaces] at ran
    have reads' : Reads given s { i with cmdMap := some map } m := reads
    split at ran
    · rename_i s₂ run
      obtain ⟨rfl, rfl⟩ := Prod.mk.inj ran
      exact .inr ⟨by decide, .thrown _ _ _ _ rfl message (past' _ _) run reads'⟩
    · rename_i s₂ run
      obtain ⟨rfl, rfl⟩ := Prod.mk.inj ran
      obtain ⟨steps, logged⟩ := ((s₂.blendTorques given).writeCommands map).appendLogSample_frame
      have mapped : s₂.interfaces.stateMap = i.stateMap := by
        obtain ⟨refs, task, gripper, frame⟩ := phase_frame given
          (s.reading _ { i with cmdMap := some map } m w).captureWarmup
        rw [run] at frame
        rw [show s₂ = _ from frame]
        show (MoveCatersianImpWithGripper.captureWarmup _).interfaces.stateMap = _
        rw [captureWarmup_interfaces]
      rw [logged]
      exact .inl ⟨rfl, @Course.control K _ given s _ _ _ _ _ _ steps _ s₂ rfl message
        (past' _ _) run reads' mapped (by rw [source, captureWarmup_reading])⟩

/-- The two branches of an update, as calls of what they run. -/
theorem update_cases (given : Cycle K) (s : MoveCatersianImpWithGripper K) :
    (∃ t, s.prepare given = (false, t) ∧ s.update given = (.error, t)) ∨
      ∃ t r t', s.prepare given = (true, t) ∧
        (if t.Warming then t.warmupCycle given else t.controlCycle given) = (r, t') ∧
        s.update given = (r, if r = .ok then t'.appendLogSample else t') := by
  unfold update
  rcases s.prepare given with ⟨read, t⟩
  cases read with
  | false => exact .inl ⟨t, rfl, rfl⟩
  | true =>
      rcases ran : (if t.Warming then t.warmupCycle given else t.controlCycle given) with ⟨r, t'⟩
      refine .inr ⟨t, r, t', rfl, ran, ?_⟩
      simp only [ran]
      cases r <;> rfl

/-- **Every update takes one of the courses.** -/
theorem course {given : Cycle K} {s s' : MoveCatersianImpWithGripper K} {r : UpdateResult}
    (ran : s.update given = (r, s')) : Course given s r s' := by
  unfold update at ran
  obtain ⟨c, i, m, w, reads, ⟨unread, stale⟩ | ⟨prepared, message⟩⟩ := s.prepare_cases given
  · rw [unread] at ran
    obtain ⟨rfl, rfl⟩ := Prod.mk.inj ran
    exact .unread c i m w stale reads
  · rw [prepared] at ran
    simp only at ran
    by_cases warming : (s.reading c i m w).captureWarmup.Warming
    · have held : (s.prepare given).2.Warming := by
        rw [prepared]
        exact warming
      obtain ⟨r', i', asked, move, torque, frame, mapped⟩ :=
        (s.reading c i m w).captureWarmup.warmupCycle_frame given
      rw [captureWarmup_interfaces] at mapped
      have warm : ∀ r steps, Course given s r _ := fun r steps =>
        .warmup r c i m w i' asked move torque steps rfl message warming held reads mapped
      rw [if_pos warming, frame] at ran
      cases r' with
      | ok =>
          obtain ⟨rfl, rfl⟩ := Prod.mk.inj ran
          obtain ⟨steps, logged⟩ := appendLogSample_frame (K := K) _
          rw [logged]
          exact warm .ok steps
      | error =>
          obtain ⟨rfl, rfl⟩ := Prod.mk.inj ran
          exact warm .error _
      | escaped =>
          obtain ⟨rfl, rfl⟩ := Prod.mk.inj ran
          exact warm .escaped _
    · rw [if_neg warming] at ran
      rcases controlled : (s.reading c i m w).captureWarmup.controlCycle given with ⟨r', s₂⟩
      rw [controlled] at ran
      rcases controlCycle_course message reads (congrArg Prod.snd prepared) warming controlled with
        ⟨rfl, ok⟩ | ⟨failed, stopped⟩
      · obtain ⟨rfl, rfl⟩ := Prod.mk.inj ran
        exact ok
      · cases r' with
        | ok => exact absurd rfl failed
        | error | escaped =>
            obtain ⟨rfl, rfl⟩ := Prod.mk.inj ran
            exact stopped

/-! ## What an update leaves alone -/

/-- What no part of an update behind the gate changes.  Finished flags are only
ever raised there, and that of `RUN_RL` not even that. -/
structure Kept (s s' : MoveCatersianImpWithGripper K) : Prop where
  params : s'.params = s.params
  services : s'.services = s.services
  taskCmd : s'.task.taskCmd = s.task.taskCmd
  lastCmd : s'.task.lastCmd = s.task.lastCmd
  finished : ∀ cmd, s.task.finished cmd = true → s'.task.finished cmd = true
  rlFinished : s'.task.rlFinished = s.task.rlFinished
  grasp : s'.gripper.grasp = s.gripper.grasp
  reported : s.gripper.graspResultReported = true → s'.gripper.graspResultReported = true
  saveRequested : s'.log.saveRequested = s.log.saveRequested

theorem Kept.trans {s₁ s₂ s₃ : MoveCatersianImpWithGripper K} (first : Kept s₁ s₂)
    (second : Kept s₂ s₃) : Kept s₁ s₃ where
  params := second.params.trans first.params
  services := second.services.trans first.services
  taskCmd := second.taskCmd.trans first.taskCmd
  lastCmd := second.lastCmd.trans first.lastCmd
  finished cmd done := second.finished cmd (first.finished cmd done)
  rlFinished := second.rlFinished.trans first.rlFinished
  grasp := second.grasp.trans first.grasp
  reported done := second.reported (first.reported done)
  saveRequested := second.saveRequested.trans first.saveRequested

/-- A function that writes to none of these groups. -/
theorem kept_of_frame {s s' : MoveCatersianImpWithGripper K} (params : s'.params = s.params)
    (services : s'.services = s.services) (task : s'.task = s.task)
    (grasp : s'.gripper.grasp = s.gripper.grasp)
    (reported : s.gripper.graspResultReported = true → s'.gripper.graspResultReported = true)
    (saveRequested : s'.log.saveRequested = s.log.saveRequested) : Kept s s' :=
  ⟨params, services, by rw [task], by rw [task], fun cmd done => by rw [task]; exact done,
    by rw [task], grasp, reported, saveRequested⟩

theorem kept_reading (s : MoveCatersianImpWithGripper K) (c : Counters K) (i : Interfaces K)
    (m : Measured K) (w : WrenchWindow K) : Kept s.gated (s.reading c i m w).captureWarmup := by
  unfold captureWarmup
  split
  · exact kept_of_frame rfl rfl rfl rfl id rfl
  · exact kept_of_frame rfl rfl rfl rfl id rfl

theorem kept_beginPolicy (given : Cycle K) (s : MoveCatersianImpWithGripper K) :
    Kept s (s.beginPolicy given) :=
  ⟨rfl, rfl, rfl, rfl, fun cmd done => by cases cmd <;> exact done, rfl, rfl, id, rfl⟩

theorem kept_trackPolicy (ph : PolicyPhase) (given : Cycle K) (s : MoveCatersianImpWithGripper K) :
    Kept s (s.trackPolicy ph given) := by
  unfold trackPolicy
  simp only
  split
  · cases ph with
    | pose1 =>
        refine ⟨rfl, rfl, rfl, rfl, fun cmd done => ?_, rfl, rfl, id, rfl⟩
        cases cmd <;> first | exact done | rfl
    | pose2 =>
        refine ⟨rfl, rfl, rfl, rfl, fun cmd done => ?_, rfl, rfl, id, rfl⟩
        cases cmd <;> first | exact done | rfl
  · exact kept_of_frame rfl rfl rfl rfl id rfl

theorem kept_policyPhase (ph : PolicyPhase) (given : Cycle K) (s : MoveCatersianImpWithGripper K) :
    Kept s (s.policyPhase ph given).2 := by
  have begun := kept_beginPolicy given s
  rcases ran : s.policyPhase ph given with ⟨done, s'⟩
  cases policyCourse ran with
  | held => exact begun.trans (kept_of_frame rfl rfl rfl rfl id rfl)
  | idle => exact begun.trans (kept_trackPolicy ph given _)
  | threw => exact begun.trans (kept_of_frame rfl rfl rfl rfl id rfl)
  | inferred =>
      refine (begun.trans ?_).trans (kept_trackPolicy ph given _)
      exact kept_of_frame rfl rfl rfl rfl id rfl

theorem kept_graspExit (s : MoveCatersianImpWithGripper K) : Kept s s.graspExit := by
  have finish : Kept s s.finishGrasp :=
    ⟨rfl, rfl, rfl, rfl, fun cmd done => by cases cmd <;> first | exact done | rfl, rfl, rfl,
      id, rfl⟩
  have report : ∀ s : MoveCatersianImpWithGripper K, Kept s s.reportGrasp :=
    fun _ => kept_of_frame rfl rfl rfl rfl (fun _ => rfl) rfl
  have same : Kept s s := kept_of_frame rfl rfl rfl rfl id rfl
  unfold graspExit
  split
  · exact same
  · split
    · split
      · exact finish.trans (report _)
      · split
        · exact report s
        · split <;> assumption
    · split <;> assumption

theorem kept_graspHold (given : Cycle K) (s : MoveCatersianImpWithGripper K) :
    Kept s (s.graspHold given) :=
  ⟨rfl, rfl, rfl, rfl, fun cmd done => by cases cmd <;> exact done, rfl, rfl, id, rfl⟩

theorem kept_grasp (given : Cycle K) (s : MoveCatersianImpWithGripper K) :
    Kept s (s.grasp given) := (kept_graspHold given s).trans (kept_graspExit _)

theorem kept_phase (given : Cycle K) (s : MoveCatersianImpWithGripper K) :
    Kept s (s.phase given).2 := by
  have same : Kept s s := kept_of_frame rfl rfl rfl rfl id rfl
  unfold phase
  split
  · exact kept_policyPhase .pose1 given s
  · exact kept_grasp given s
  · exact kept_policyPhase .pose2 given s
  · exact same
  · exact same

theorem Course.kept {given : Cycle K} {s s' : MoveCatersianImpWithGripper K} {r : UpdateResult}
    (course : Course given s r s') : Kept s.gated s' := by
  cases course with
  | unread c i m w => exact kept_of_frame rfl rfl rfl rfl id rfl
  | warmup _ c i m w i' asked move torque steps prepared =>
      subst prepared
      exact (kept_reading s c i m w).trans (kept_of_frame rfl rfl rfl rfl id rfl)
  | unmapped c i m w => exact kept_reading s c i m w
  | thrown c i m w prepared message past run =>
      subst prepared
      have phase := kept_phase given (s.reading c i m w).captureWarmup
      rw [run] at phase
      exact (kept_reading s c i m w).trans phase
  | control c i m w i' torque steps prepared message past run =>
      subst prepared
      have phase := kept_phase given (s.reading c i m w).captureWarmup
      rw [run] at phase
      exact ((kept_reading s c i m w).trans phase).trans (kept_of_frame rfl rfl rfl rfl id rfl)

/-- Behind its gate, an update keeps the commands, the goals and the services. -/
theorem update_kept (given : Cycle K) (s : MoveCatersianImpWithGripper K) :
    Kept s.gated (s.update given).2 := (course rfl).kept

theorem update_lastCmd (given : Cycle K) (s : MoveCatersianImpWithGripper K) :
    (s.update given).2.task.lastCmd =
      if s.task.Advances then s.task.taskCmd else s.task.lastCmd := by
  rw [(update_kept given s).lastCmd]
  split
  · rename_i advances
    rw [gated_of_advances advances]
  · rename_i stays
    rw [gated_of_not_advances stays]

/-- The gate of an update that stays in its mode does nothing. -/
theorem gated_of_update_lastCmd {given : Cycle K} {s : MoveCatersianImpWithGripper K}
    (same : (s.update given).2.task.lastCmd = s.task.lastCmd) : s.gated = s := by
  refine gated_of_not_advances fun advances => ?_
  rw [update_lastCmd, if_pos advances] at same
  rw [Task.Advances, same] at advances
  exact TaskCmd.next_ne_self _ advances.1

/-- A successful update after warm-up that executes `cmd`. -/
def Executes (cmd : TaskCmd) (s : MoveCatersianImpWithGripper K) (given : Cycle K) : Prop :=
  (s.update given).1 = .ok ∧ ¬ (s.prepare given).2.Warming ∧
    (s.update given).2.task.lastCmd = cmd

instance (cmd : TaskCmd) (s : MoveCatersianImpWithGripper K) (given : Cycle K) :
    Decidable (s.Executes cmd given) := inferInstanceAs (Decidable (_ ∧ _ ∧ _))

/-- Such an update runs the phase of its mode, and adds only torques and a log
row to what the phase leaves. -/
theorem Executes.phase {cmd : TaskCmd} {s : MoveCatersianImpWithGripper K} {given : Cycle K}
    (executes : s.Executes cmd given) :
    ∃ c i m w s₂ i' torque steps,
      ((s.reading c i m w).captureWarmup).phase given = (true, s₂) ∧
        ((s.reading c i m w).captureWarmup).task.lastCmd = cmd ∧
        (s.reading c i m w).captureWarmup =
          { (s.prepare given).2 with counters := c, interfaces := i } ∧
        (s.update given).2 = { s₂ with
          interfaces := i', torque := torque, log := { s₂.log with stepsWritten := steps } } := by
  obtain ⟨ok, past, mode⟩ := executes
  rcases ran : s.update given with ⟨r, s'⟩
  rw [ran] at ok mode
  cases course ran with
  | unread | unmapped | thrown => cases ok
  | warmup _ c i m w i' asked move torque steps prepared message warming held =>
      exact absurd held past
  | @control c i m w i' torque steps s₁ s₂ prepared message warm run reads mapped source =>
      subst prepared
      have kept := kept_phase given (s.reading c i m w).captureWarmup
      rw [run] at kept
      exact ⟨c, i, m, w, s₂, i', torque, steps, run, kept.lastCmd.symm.trans mode, source, rfl⟩

end MoveCatersianImpWithGripper

end FrankaRos.Controller
