/-
# Controller.LogBuffer -- the rows of the log and their header

`init_log_schema_and_buffer` names the columns of the log and allocates it,
`append_log_sample_rt` writes a row.  The names and the entries are two lists, each put
together by its own loops; `Quantity` says what a name stands for, and both lists are the
same list of quantities (`logVarNames_eq`, `logRow_eq`).

`Recording` observes a run: the memory of the log, whether `RUN_RL` has been entered since
the last configuration, and the samples that were to be appended since.  By `faithful_run`
the rows in use are the first of these samples, in order, and nothing is ever written past
the end.
-/
import FrankaRos.Controller.TimerServices
import FrankaRos.Theory.RowStore

namespace FrankaRos.Controller

open FrankaRos.Theory

set_option autoImplicit false

set_option linter.unusedSectionVars false

/-! ## What is recorded -/

/-- The members a row reads that nothing else in the model does. -/
structure Frames (K : Type) where
  handWrench : Fin 6 → Double K
  ee6Ref : Fin 6 → Double K
  ee6Mea : Fin 6 → Double K

/-- A recorded quantity. -/
inductive Quantity where
  | time
  | q (i : Fin 7)
  | qDes (i : Fin 7)
  | dq (i : Fin 7)
  | tauMeas (i : Fin 7)
  | tauCmd (i : Fin 7)
  | handContactWrench (i : Fin 6)
  | eeRef (i : Fin 6)
  | ee6Meas (i : Fin 6)
  | cmd
  | move1Finished
  | graspFinished
  | move2Finished
  | rlFinished
  deriving DecidableEq

/-- What a header calls it. -/
def Quantity.name : Quantity → String
  | time => "t"
  | q i => "q" ++ toString i.val
  | qDes i => "q_des" ++ toString i.val
  | dq i => "dq" ++ toString i.val
  | tauMeas i => "tau_meas" ++ toString i.val
  | tauCmd i => "tau_cmd" ++ toString i.val
  | handContactWrench i => "hand_contact_wrench" ++ toString i.val
  | eeRef i => "ee_ref" ++ toString i.val
  | ee6Meas i => "ee6_meas" ++ toString i.val
  | cmd => "cmd"
  | move1Finished => "move_1_finished"
  | graspFinished => "grasp_finished"
  | move2Finished => "move_2_finished"
  | rlFinished => "rl_finished"

/-- The value of the enumerator. -/
def TaskCmd.toInt : TaskCmd → Nat
  | none => 0
  | movePose1 => 1
  | movePose2 => 2
  | grasp => 3
  | openGripper => 4
  | closeGripper => 5
  | runRl => 6
  | saveLog => 7
  | stop => 8

section Rows

variable {K : Type} [MachineArith K]

def flag (b : Bool) : Double K := if b then Double.lit 1 else Double.lit 0

/-- What it is at the end of an update. -/
def Quantity.value (frames : Frames K) (s : MoveCatersianImpWithGripper K) : Quantity → Double K
  | time => s.counters.timeTotal - s.log.timeStart
  | q i => s.measured.q i
  | qDes i => s.refs.qDes i
  | dq i => s.measured.dq i
  | tauMeas i => s.measured.tauMeas i
  | tauCmd i => s.torque.tauToSend i
  | handContactWrench i => frames.handWrench i
  | eeRef i => frames.ee6Ref i
  | ee6Meas i => frames.ee6Mea i
  | cmd => Double.lit s.task.lastCmd.toInt
  | move1Finished => flag s.task.move1Finished
  | graspFinished => flag s.task.graspFinished
  | move2Finished => flag s.task.move2Finished
  | rlFinished => flag s.task.rlFinished

/-! ## The log -/

/-- The columns and the cells of the log; there are no cells once one has been written
outside of them. -/
structure LogMemory (K : Type) where
  logVarNames : List String
  logNumVars : Nat
  logBuffer : Option (List (Double K))

/-- The names of `n` columns. -/
def columns (n : Nat) (name : String) : List String :=
  (List.range n).map fun i => name ++ toString i

def initLogSchemaAndBuffer : LogMemory K :=
  let logVarNames :=
    ["t"] ++ columns 7 "q" ++ columns 7 "q_des" ++ columns 7 "dq" ++ columns 7 "tau_meas" ++
      columns 7 "tau_cmd" ++ columns 6 "hand_contact_wrench" ++ columns 6 "ee_ref" ++
      columns 6 "ee6_meas" ++
      ["cmd", "move_1_finished", "grasp_finished", "move_2_finished", "rl_finished"]
  let logNumVars := logVarNames.length
  ⟨logVarNames, logNumVars,
    some (List.replicate (MoveCatersianImpWithGripper.logCapacitySteps * logNumVars) 0)⟩

/-- The entries `append_log_sample_rt` writes, in its order. -/
def logRow (frames : Frames K) (s : MoveCatersianImpWithGripper K) : List (Double K) :=
  [s.counters.timeTotal - s.log.timeStart] ++ List.ofFn s.measured.q ++ List.ofFn s.refs.qDes ++
    List.ofFn s.measured.dq ++ List.ofFn s.measured.tauMeas ++ List.ofFn s.torque.tauToSend ++
    List.ofFn frames.handWrench ++ List.ofFn frames.ee6Ref ++ List.ofFn frames.ee6Mea ++
    [Double.lit s.task.lastCmd.toInt, flag s.task.move1Finished, flag s.task.graspFinished,
      flag s.task.move2Finished, flag s.task.rlFinished]

/-- `append_log_sample_rt` on the cells; `appendLogSample` is what it does to the rest. -/
def appendLogSampleRt (frames : Frames K) (s : MoveCatersianImpWithGripper K) (m : LogMemory K) :
    LogMemory K :=
  if s.log.started = false then m
  else if MoveCatersianImpWithGripper.logCapacitySteps ≤ s.log.stepsWritten then m
  else
    let base := s.log.stepsWritten * m.logNumVars
    { m with logBuffer := m.logBuffer.bind fun cells => writeFrom base (logRow frames s) cells }

/-! ## One list of quantities -/

/-- All that is recorded, in the order of the columns. -/
def quantities : List Quantity :=
  [.time] ++ List.ofFn Quantity.q ++ List.ofFn Quantity.qDes ++ List.ofFn Quantity.dq ++
    List.ofFn Quantity.tauMeas ++ List.ofFn Quantity.tauCmd ++
    List.ofFn Quantity.handContactWrench ++ List.ofFn Quantity.eeRef ++
    List.ofFn Quantity.ee6Meas ++
    [.cmd, .move1Finished, .graspFinished, .move2Finished, .rlFinished]

theorem columns_eq {n : Nat} (name : String) (quantity : Fin n → Quantity)
    (named : ∀ i, (quantity i).name = name ++ toString i.val) :
    columns n name = (List.ofFn quantity).map Quantity.name := by
  rw [List.map_ofFn, columns]
  refine List.ext_getElem (by simp) fun i _ inside => ?_
  simp [named]

theorem logVarNames_eq :
    (initLogSchemaAndBuffer : LogMemory K).logVarNames = quantities.map Quantity.name := by
  simp only [initLogSchemaAndBuffer, quantities, List.map_append]
  rw [columns_eq "q" .q fun _ => rfl, columns_eq "q_des" .qDes fun _ => rfl,
    columns_eq "dq" .dq fun _ => rfl, columns_eq "tau_meas" .tauMeas fun _ => rfl,
    columns_eq "tau_cmd" .tauCmd fun _ => rfl,
    columns_eq "hand_contact_wrench" .handContactWrench fun _ => rfl,
    columns_eq "ee_ref" .eeRef fun _ => rfl, columns_eq "ee6_meas" .ee6Meas fun _ => rfl]
  rfl

theorem logRow_eq (frames : Frames K) (s : MoveCatersianImpWithGripper K) :
    logRow frames s = quantities.map (Quantity.value frames s) := by
  simp only [logRow, quantities, List.map_append, List.map_ofFn]
  rfl

end Rows

theorem length_quantities : quantities.length = 59 := by
  simp [quantities]

/-- The quantity of a name. -/
def Quantity.ofName (name : String) : Option Quantity := quantities.find? fun x => x.name = name

theorem Quantity.ofName_name (x : Quantity) : ofName x.name = some x := by
  cases x with
  | time | cmd | move1Finished | graspFinished | move2Finished | rlFinished => decide +kernel
  | q i | qDes i | dq i | tauMeas i | tauCmd i | handContactWrench i | eeRef i | ee6Meas i =>
      revert i
      decide +kernel

/-- No two quantities have the same name. -/
theorem Quantity.name_injective : Function.Injective Quantity.name := fun x y same => by
  have found := ofName_name x
  rw [same, ofName_name y] at found
  exact (Option.some.inj found).symm

/-! ## Runs -/

namespace MoveCatersianImpWithGripper

variable {K : Type} [MachineArith K]

/-- The gate lets the next update into `RUN_RL`. -/
def EntersRl (s : MoveCatersianImpWithGripper K) : Prop :=
  s.task.Advances ∧ s.task.taskCmd = .runRl

instance (s : MoveCatersianImpWithGripper K) : Decidable s.EntersRl :=
  inferInstanceAs (Decidable (_ ∧ _))

/-- The controller and the memory of its log, observed: whether it has entered `RUN_RL`, and
the samples that were to be appended since. -/
structure Recording (K : Type) where
  controller : MoveCatersianImpWithGripper K
  memory : LogMemory K
  entered : Bool
  samples : List (Quantity → Double K)

namespace Recording

/-- Nothing is allocated before the first configuration. -/
def start (params : Params K) : Recording K := ⟨constructed params, ⟨[], 0, some []⟩, false, []⟩

/-- `update`, down to the row it appends. -/
def update (given : Cycle K) (frames : Frames K) (o : Recording K) : Recording K :=
  let entered := o.entered || decide o.controller.EntersRl
  let samples := if o.controller.EntersRl then [] else o.samples
  match o.controller.prepare given with
  | (false, s) => ⟨s, o.memory, entered, samples⟩
  | (true, s) =>
      match if s.Warming then s.warmupCycle given else s.controlCycle given with
      | (.ok, s) =>
          ⟨s.appendLogSample, appendLogSampleRt frames s o.memory, entered,
            if s.log.started then samples ++ [Quantity.value frames s] else samples⟩
      | (_, s) => ⟨s, o.memory, entered, samples⟩

/-- The controller's step, with what is in front of it at the time. -/
def step (o : Recording K) (e : Event K × Frames K) : Recording K :=
  match e.1 with
  | .configure given =>
      if o.controller.reconfigures (.configure given) then
        ⟨o.controller.step (.configure given), initLogSchemaAndBuffer, false, []⟩
      else { o with controller := o.controller.step (.configure given) }
  | .update given => if o.controller.services.lifecycle = .active then o.update given e.2 else o
  | other => { o with controller := o.controller.step other }

/-- What the log promises. -/
structure Faithful (o : Recording K) : Prop where
  /-- No write has fallen outside. -/
  inside : o.memory.logBuffer ≠ .none
  width : o.memory.logNumVars = o.memory.logVarNames.length
  steps : o.entered = true →
    o.controller.log.stepsWritten = min o.samples.length logCapacitySteps
  /-- Every column is named after a quantity, and holds it. -/
  named : o.entered = true → ∀ name ∈ o.memory.logVarNames, ∃ x, name = Quantity.name x
  rows : o.entered = true → ∀ cells, o.memory.logBuffer = some cells →
    ∀ i sample, i < logCapacitySteps → o.samples[i]? = some sample →
      (rowAt o.memory.logNumVars i cells).length = o.memory.logNumVars ∧
        ∀ (k : Nat) (x : Quantity), o.memory.logVarNames[k]? = some x.name →
          (rowAt o.memory.logNumVars i cells)[k]? = some (sample x)
  saturated : o.entered = true → logCapacitySteps ≤ o.samples.length → ¬ o.controller.EntersRl →
    ∀ given frames, (o.step (.update given, frames)).memory = o.memory ∧
      (o.step (.update given, frames)).controller.log.stepsWritten =
        o.controller.log.stepsWritten

end Recording

/-! ## One row -/

/-- The memory is allocated for all columns. -/
structure Allocated (m : LogMemory K) : Prop where
  names : m.logVarNames = quantities.map Quantity.name
  numVars : m.logNumVars = quantities.length
  cells : ∃ cells, m.logBuffer = some cells ∧ cells.length = logCapacitySteps * quantities.length

theorem allocated_init : Allocated (initLogSchemaAndBuffer : LogMemory K) := by
  have numVars : (initLogSchemaAndBuffer : LogMemory K).logNumVars = quantities.length := by
    show (initLogSchemaAndBuffer : LogMemory K).logVarNames.length = _
    rw [logVarNames_eq, List.length_map]
  refine ⟨logVarNames_eq, numVars, _, rfl, ?_⟩
  rw [List.length_replicate]
  exact congrArg _ numVars

/-- The rows in use are the samples, as far as there is room. -/
structure Written (m : LogMemory K) (steps : Nat) (samples : List (Quantity → Double K)) :
    Prop where
  allocated : Allocated m
  steps : steps = min samples.length logCapacitySteps
  rows : ∀ cells, m.logBuffer = some cells → ∀ i sample, i < logCapacitySteps →
    samples[i]? = some sample → rowAt quantities.length i cells = quantities.map sample

theorem Allocated.restart {m : LogMemory K} (allocated : Allocated m) : Written m 0 [] :=
  ⟨allocated, (Nat.zero_min _).symm, fun _ _ _ _ _ there => by cases there⟩

/-- The row `steps` is there for every step that is still counted. -/
theorem row_fits {steps : Nat} (room : steps < logCapacitySteps) {cells : List (Double K)}
    (size : cells.length = logCapacitySteps * quantities.length) :
    (steps + 1) * quantities.length ≤ cells.length := by
  rw [size]
  exact Nat.mul_le_mul_right _ room

theorem length_logRow (frames : Frames K) (s : MoveCatersianImpWithGripper K) :
    (logRow frames s).length = quantities.length := by
  rw [logRow_eq, List.length_map]

/-- What an append writes, when it writes. -/
theorem append_cells (frames : Frames K) {s : MoveCatersianImpWithGripper K} {m : LogMemory K}
    (allocated : Allocated m) (started : s.log.started = true)
    (room : s.log.stepsWritten < logCapacitySteps) :
    ∃ cells written, m.logBuffer = some cells ∧
      cells.length = logCapacitySteps * quantities.length ∧
      writeFrom (s.log.stepsWritten * quantities.length) (logRow frames s) cells = some written ∧
      appendLogSampleRt frames s m = { m with logBuffer := some written } := by
  obtain ⟨-, numVars, cells, buffer, size⟩ := allocated
  have wrote := write_row (length_logRow frames s) (row_fits room size)
  refine ⟨cells, _, buffer, size, wrote, ?_⟩
  rw [appendLogSampleRt, if_neg (by rw [started]; decide), if_neg (Nat.not_le.2 room), buffer,
    numVars]
  simp only [Option.bind_some, wrote]

theorem Allocated.append {m : LogMemory K} (allocated : Allocated m) (frames : Frames K)
    (s : MoveCatersianImpWithGripper K) : Allocated (appendLogSampleRt frames s m) := by
  by_cases started : s.log.started = true
  · by_cases room : s.log.stepsWritten < logCapacitySteps
    · obtain ⟨cells, written, -, size, wrote, after⟩ := append_cells frames allocated started room
      rw [after]
      exact ⟨allocated.names, allocated.numVars, written, rfl,
        (length_write_row (length_logRow frames s) (row_fits room size) wrote).trans size⟩
    · rw [appendLogSampleRt, if_neg (by rw [started]; decide), if_pos (Nat.not_lt.1 room)]
      exact allocated
  · rw [appendLogSampleRt, if_pos (by simpa using started)]
    exact allocated

/-- **One more sample**: it becomes the next row, if there is room for it. -/
theorem Written.append {m : LogMemory K} {samples : List (Quantity → Double K)}
    {s : MoveCatersianImpWithGripper K} (holds : Written m s.log.stepsWritten samples)
    (frames : Frames K) :
    Written (appendLogSampleRt frames s m) s.appendLogSample.log.stepsWritten
      (if s.log.started then samples ++ [Quantity.value frames s] else samples) := by
  obtain ⟨allocated, steps, rows⟩ := holds
  cases started : s.log.started with
  | false =>
      rw [appendLogSampleRt, if_pos started, appendLogSample, if_neg (by simp [started])]
      exact ⟨allocated, steps, rows⟩
  | true =>
      simp only [if_true]
      by_cases room : s.log.stepsWritten < logCapacitySteps
      · have short : samples.length = s.log.stepsWritten := by omega
        refine ⟨allocated.append frames s, ?_, ?_⟩
        · rw [appendLogSample, if_pos ⟨started, room⟩, List.length_append, short]
          exact (Nat.min_eq_left room).symm
        · obtain ⟨cells, written, buffer, size, wrote, after⟩ :=
            append_cells frames allocated started room
          rw [after]
          intro cells' here i sample below there
          obtain rfl : written = cells' := Option.some.inj here
          rcases Nat.lt_or_ge i samples.length with earlier | last
          · rw [List.getElem?_append_left earlier] at there
            rw [rowAt_write_of_lt (by omega) (length_logRow frames s) (row_fits room size) wrote]
            exact rows cells buffer i sample below there
          · rw [List.getElem?_append_right last] at there
            obtain ⟨rfl, rfl⟩ : i = s.log.stepsWritten ∧ Quantity.value frames s = sample := by
              cases beyond : i - samples.length with
              | zero =>
                  rw [beyond] at there
                  exact ⟨by omega, Option.some.inj there⟩
              | succ n => simp [beyond] at there
            rw [rowAt_write_self (length_logRow frames s) (row_fits room size) wrote, logRow_eq]
      · rw [appendLogSampleRt, if_neg (by rw [started]; decide), if_pos (Nat.not_lt.1 room),
          appendLogSample, if_neg fun both => room both.2]
        refine ⟨allocated, ?_, fun cells buffer i sample below there => ?_⟩
        · rw [List.length_append]
          omega
        · rw [List.getElem?_append_left (by omega)] at there
          exact rows cells buffer i sample below there

/-! ## What an event does to the log -/

theorem log_settle {s : MoveCatersianImpWithGripper K} {target : Lifecycle}
    {out : CallbackReturn × MoveCatersianImpWithGripper K} (same : out.2.log = s.log) :
    (settle target out).log = s.log := by
  obtain ⟨result, s'⟩ := out
  cases result <;> exact same

/-- Only updates and configurations move the step counter. -/
theorem stepsWritten_step {s : MoveCatersianImpWithGripper K} {e : Event K}
    (other : ∀ given, e ≠ .update given) (kept : s.reconfigures e = false) :
    (s.step e).log.stepsWritten = s.log.stepsWritten := by
  cases e with
  | configure given =>
      simp only [step]
      split
      · rename_i unconfigured
        rcases onConfigure_cases given s with eq | ⟨p, eq⟩
        · rw [eq]
          exact congrArg Log.stepsWritten (log_settle rfl)
        · simp [reconfigures, unconfigured, eq] at kept
      · rfl
  | activate given =>
      obtain ⟨refs, kinematics, i, m, warmup, task, gripper, frame, -⟩ := onActivate_frame given s
      simp only [step]
      split
      · exact congrArg Log.stepsWritten (log_settle (by rw [frame]))
      · rfl
  | update given => exact absurd rfl (other given)
  | gripperTimer moveServer graspServer =>
      simp only [step, gripperTimer]
      repeat' split
      all_goals rfl
  | housekeeping =>
      simp only [step, housekeeping, saveLogToTxt]
      repeat' split
      all_goals rfl
  | taskCmd =>
      simp only [step, onTaskCmd]
      repeat' split
      all_goals rfl
  | deactivate | cleanup | graspResponse | graspResult | moveResponse | moveResult =>
      simp only [step]
      split <;> rfl

/-- Entering `RUN_RL` starts the log over; nothing else in the gate touches it. -/
theorem gated_log (s : MoveCatersianImpWithGripper K) :
    s.gated.log.stepsWritten = if s.EntersRl then 0 else s.log.stepsWritten := by
  by_cases advances : s.task.Advances
  · rw [gated_of_advances advances]
    cases cmd : s.task.taskCmd <;> simp [EntersRl, advances, cmd, enter, enterMovePose1,
      enterGrasp, enterMovePose2, enterRunRl]
  · rw [gated_of_not_advances advances, if_neg fun both => advances both.1]

theorem prepare_log (given : Cycle K) (s : MoveCatersianImpWithGripper K) :
    (s.prepare given).2.log = s.gated.log := by
  obtain ⟨c, i, m, w, u, frame⟩ := prepare_frame given s
  rw [frame]

/-- Neither branch of an update touches the log. -/
theorem branch_log {given : Cycle K} {s s' : MoveCatersianImpWithGripper K} {r : UpdateResult}
    (ran : (if s.Warming then s.warmupCycle given else s.controlCycle given) = (r, s')) :
    s'.log = s.log := by
  split at ran
  · obtain ⟨r', i, asked, move, torque, frame, -⟩ := s.warmupCycle_frame given
    rw [frame] at ran
    obtain ⟨-, rfl⟩ := Prod.mk.inj ran
    rfl
  · unfold controlCycle at ran
    simp only at ran
    split at ran
    · obtain ⟨-, rfl⟩ := Prod.mk.inj ran
      rfl
    · rename_i map built
      obtain ⟨refs, task, gripper, frame⟩ := phase_frame given { s with
        counters := { s.counters with nTorque := s.counters.nTorque + 1 }
        interfaces := { s.interfaces with cmdMap := some map } }
      split at ran
      · rename_i s₂ run
        obtain ⟨-, rfl⟩ := Prod.mk.inj ran
        rw [run] at frame
        rw [show s₂ = _ from frame]
      · rename_i s₂ run
        obtain ⟨-, rfl⟩ := Prod.mk.inj ran
        rw [run] at frame
        rw [show s₂ = _ from frame]
        rfl

namespace Recording

/-- The observed update is the update. -/
theorem update_controller (given : Cycle K) (frames : Frames K) (o : Recording K) :
    (o.update given frames).controller = (o.controller.update given).2 := by
  unfold update MoveCatersianImpWithGripper.update
  rcases o.controller.prepare given with ⟨read, s⟩
  cases read with
  | false => rfl
  | true =>
      simp only
      rcases (if s.Warming then s.warmupCycle given else s.controlCycle given) with ⟨r, s'⟩
      cases r <;> rfl

theorem step_controller (o : Recording K) (e : Event K × Frames K) :
    (o.step e).controller = o.controller.step e.1 := by
  obtain ⟨e, frames⟩ := e
  cases e with
  | configure given =>
      simp only [step]
      split <;> rfl
  | update given =>
      simp only [step, MoveCatersianImpWithGripper.step]
      split
      · exact update_controller given frames o
      · rfl
  | _ => rfl

/-! ## The invariant -/

/-- The memory is allocated once there can be updates, and then has the samples of the
present `RUN_RL`. -/
structure Recorded (o : Recording K) : Prop where
  memory : Allocated o.memory ∨ o.memory = ⟨[], 0, some []⟩ ∧ o.entered = false ∧
    o.controller.services.lifecycle ≠ .inactive ∧ o.controller.services.lifecycle ≠ .active
  written : o.entered = true → Written o.memory o.controller.log.stepsWritten o.samples

theorem Recorded.allocated {o : Recording K} (recorded : Recorded o)
    (active : o.controller.services.lifecycle = .active) : Allocated o.memory :=
  recorded.memory.resolve_right fun fresh => fresh.2.2.2 active

/-- What there is to write to once the gate has run. -/
theorem written_gated {o : Recording K} (recorded : Recorded o)
    (active : o.controller.services.lifecycle = .active)
    (entered : (o.entered || decide o.controller.EntersRl) = true) :
    Written o.memory o.controller.gated.log.stepsWritten
      (if o.controller.EntersRl then [] else o.samples) := by
  rw [gated_log]
  by_cases enters : o.controller.EntersRl
  · rw [if_pos enters, if_pos enters]
    exact (recorded.allocated active).restart
  · rw [if_neg enters, if_neg enters]
    exact recorded.written (by simpa [enters] using entered)

theorem recorded_update {o : Recording K} (recorded : Recorded o)
    (active : o.controller.services.lifecycle = .active) (given : Cycle K) (frames : Frames K) :
    Recorded (o.update given frames) := by
  have allocated := recorded.allocated active
  have holds := written_gated recorded active
  have log := prepare_log given o.controller
  unfold update
  rcases prepared : o.controller.prepare given with ⟨read, s⟩
  rw [prepared] at log
  rw [← show s.log = _ from log] at holds
  cases read with
  | false => exact ⟨.inl allocated, holds⟩
  | true =>
      simp only
      rcases ran : (if s.Warming then s.warmupCycle given else s.controlCycle given) with ⟨r, s'⟩
      rw [← branch_log ran] at holds
      cases r with
      | ok =>
          exact ⟨.inl (allocated.append frames s'), fun entered => (holds entered).append frames⟩
      | error | escaped => exact ⟨.inl allocated, holds⟩

theorem recorded_kept {o : Recording K} (recorded : Recorded o) {e : Event K}
    (other : ∀ given, e ≠ .update given) (kept : o.controller.reconfigures e = false) :
    Recorded { o with controller := o.controller.step e } := by
  constructor
  · refine recorded.memory.imp id fun ⟨memory, entered, notInactive, notActive⟩ =>
      ⟨memory, entered, ?_⟩
    have services := services_step o.controller e
    generalize (o.controller.step e).services = after at services
    cases services with
    | kept => exact ⟨notInactive, notActive⟩
    | failed v finalized => simp [finalized]
    | configured configures =>
        obtain ⟨given, rfl, unconfigured, success⟩ := configures
        simp [reconfigures, unconfigured, success] at kept
    | activated activates =>
        obtain ⟨-, -, inactive, -⟩ := activates
        exact absurd inactive notInactive
    | deactivated event active => exact absurd active notActive
    | cleaned => simp
  · intro entered
    rw [show ({ o with controller := o.controller.step e } : Recording K).controller = _ from rfl,
      stepsWritten_step other kept]
    exact recorded.written entered

theorem recorded_step {o : Recording K} (recorded : Recorded o) (e : Event K × Frames K) :
    Recorded (o.step e) := by
  obtain ⟨e, frames⟩ := e
  cases e with
  | configure given =>
      simp only [step]
      split
      · exact ⟨.inl allocated_init, fun entered => by cases entered⟩
      · rename_i kept
        exact recorded_kept recorded nofun (by simpa using kept)
  | update given =>
      simp only [step]
      split
      · rename_i active
        exact recorded_update recorded active given frames
      · exact recorded
  | _ => exact recorded_kept recorded nofun rfl

theorem recorded_run (params : Params K) (es : List (Event K × Frames K)) :
    Recorded (run step (start params) es) := by
  refine run_invariant step (I := Recorded) (A := fun _ => True) ?_ (fun _ _ => trivial) ?_
  · exact fun o e _ recorded => recorded_step recorded e
  · refine ⟨.inr ⟨rfl, rfl, ?_, ?_⟩, fun entered => by cases entered⟩ <;> exact nofun

/-! ## What the invariant says -/

/-- There is no room, so there is no row. -/
theorem append_full (frames : Frames K) {s : MoveCatersianImpWithGripper K} (m : LogMemory K)
    (full : logCapacitySteps ≤ s.log.stepsWritten) :
    appendLogSampleRt frames s m = m ∧ s.appendLogSample = s := by
  constructor
  · rw [appendLogSampleRt, if_pos full, ite_self]
  · rw [appendLogSample, if_neg fun both => absurd both.2 (Nat.not_lt.2 full)]

theorem update_full {o : Recording K} (full : logCapacitySteps ≤ o.controller.log.stepsWritten)
    (stays : ¬ o.controller.EntersRl) (given : Cycle K) (frames : Frames K) :
    (o.update given frames).memory = o.memory ∧
      (o.update given frames).controller.log.stepsWritten = o.controller.log.stepsWritten := by
  have gate := gated_log o.controller
  rw [if_neg stays, ← prepare_log given] at gate
  unfold update
  rcases prepared : o.controller.prepare given with ⟨read, s⟩
  rw [prepared] at gate
  cases read with
  | false => exact ⟨rfl, gate⟩
  | true =>
      simp only
      rcases ran : (if s.Warming then s.warmupCycle given else s.controlCycle given) with ⟨r, s'⟩
      have same : s'.log.stepsWritten = o.controller.log.stepsWritten := by
        rw [branch_log ran]
        exact gate
      cases r with
      | ok =>
          obtain ⟨memory, appended⟩ := append_full frames o.memory (le_of_le_of_eq full same.symm)
          exact ⟨memory, (congrArg (fun s => s.log.stepsWritten) appended).trans same⟩
      | error | escaped => exact ⟨rfl, same⟩

theorem faithful_of_recorded {o : Recording K} (recorded : Recorded o) : Faithful o where
  inside := by
    rcases recorded.memory with ⟨-, -, cells, buffer, -⟩ | ⟨memory, -⟩
    · rw [buffer]
      exact nofun
    · rw [memory]
      exact nofun
  width := by
    rcases recorded.memory with ⟨names, numVars, -⟩ | ⟨memory, -⟩
    · rw [names, numVars, List.length_map]
    · rw [memory]
      rfl
  steps entered := (recorded.written entered).steps
  named entered name there := by
    rw [(recorded.written entered).allocated.names] at there
    obtain ⟨x, -, same⟩ := List.mem_map.1 there
    exact ⟨x, same.symm⟩
  rows entered cells buffer i sample below there := by
    obtain ⟨⟨names, numVars, -⟩, -, rows⟩ := recorded.written entered
    rw [numVars, names, rows cells buffer i sample below there]
    refine ⟨List.length_map _, fun k x column => ?_⟩
    rw [List.getElem?_map, Option.map_eq_some_iff] at column
    obtain ⟨y, here, same⟩ := column
    rw [List.getElem?_map, here, Quantity.name_injective same]
    rfl
  saturated entered many stays given frames := by
    have full : logCapacitySteps ≤ o.controller.log.stepsWritten := by
      rw [(recorded.written entered).steps]
      exact Nat.le_min.2 ⟨many, Nat.le_refl _⟩
    simp only [step]
    split
    · exact update_full full stays given frames
    · exact ⟨rfl, rfl⟩

/-- **The log is faithful** in every run, whatever events it consists of. -/
theorem faithful_run (params : Params K) (es : List (Event K × Frames K)) :
    Faithful (run step (start params) es) :=
  faithful_of_recorded (recorded_run params es)

end Recording

end MoveCatersianImpWithGripper

end FrankaRos.Controller
