/-
# Controller.LogSave -- saving the log, and what a failure leaves behind

`save_log_to_txt_nonrt` latches `log_save_done_` before it looks at anything, stops the
logging before it touches the disk, and then leaves at the first thing that goes wrong:
silently when there is nothing to save or the file does not open, by an exception when the
directory cannot be created, not at all when a write fails.  Whatever happens, nobody takes
the latch back before the next `RUN_RL`, so an attempt that has not written the log is the
last one (`housekeeping_latched`).  Hence the save is all or nothing exactly when it is all
(`allOrNothing_iff`).

Which entries the text has is what `Written` of `Controller.LogBuffer` says
(`logText_of_written`); `saved_run` puts the two together for the samples of a run.
-/
import FrankaRos.Controller.LogBuffer

namespace FrankaRos.Controller

open FrankaRos.Theory

set_option autoImplicit false

set_option linter.unusedSectionVars false

/-! ## The disk -/

/-- How a call on the file system or on a stream ends: as it should, in an error state, by
an exception. -/
inductive CallEnd where
  | done
  | failed
  | thrown
  deriving DecidableEq

structure Disk where
  createDirectories : CallEnd
  openFile : CallEnd
  /-- Of the pieces of text an attempt writes, counted; one that is lost when the stream is
  flushed or closed counts as failed. -/
  write : Nat → CallEnd

def Disk.working : Disk := ⟨.done, .done, fun _ => .done⟩

/-- What `<<` is given; `none` has been read past the end. -/
inductive Piece (K : Type) where
  | text (s : String)
  | name (s : Option String)
  | value (x : Option (Double K))

section Text

variable {K : Type} [MachineArith K]

/-- The pieces that reach the disk.  A stream in an error state swallows the rest. -/
def emit (write : Nat → CallEnd) : Nat → List (Piece K) → CallEnd × List (Piece K)
  | _, [] => (.done, [])
  | n, piece :: pieces =>
      match write n with
      | .done =>
          let (ends, written) := emit write (n + 1) pieces
          (ends, piece :: written)
      | .failed => (.failed, [])
      | .thrown => (.thrown, [])

/-- Everything is on the disk, if every write was. -/
theorem emit_eq_iff (write : Nat → CallEnd) (n : Nat) (pieces : List (Piece K)) :
    (emit write n pieces).2 = pieces ↔ ∀ i < pieces.length, write (n + i) = .done := by
  induction pieces generalizing n with
  | nil => simp [emit]
  | cons piece pieces ih =>
      constructor
      · intro all i inside
        cases here : write n with
        | failed | thrown => simp [emit, here] at all
        | done =>
            simp only [emit, here, List.cons.injEq, true_and] at all
            cases i with
            | zero => exact here
            | succ i =>
                have later := (ih (n + 1)).1 all i (Nat.lt_of_succ_lt_succ inside)
                rwa [Nat.add_assoc, Nat.add_comm 1] at later
      · intro all
        have here : write n = .done := all 0 (Nat.succ_pos _)
        have later := (ih (n + 1)).2 fun i inside => by
          rw [Nat.add_assoc, Nat.add_comm 1]
          exact all (i + 1) (Nat.succ_lt_succ inside)
        simp only [emit, here]
        rw [later]

/-! ## The text -/

/-- One line of `n` entries. -/
def line (n : Nat) (entry : Nat → Piece K) : List (Piece K) :=
  ((List.range n).flatMap fun j => entry j :: if j + 1 < n then [.text " "] else []) ++
    [.text "\n"]

namespace LogMemory

def header (m : LogMemory K) : List (Piece K) :=
  line m.logNumVars fun j => .name m.logVarNames[j]?

def row (m : LogMemory K) (i : Nat) : List (Piece K) :=
  let base := i * m.logNumVars
  line m.logNumVars fun j => .value (m.logBuffer.bind fun cells => cells[base + j]?)

/-- The header and every recorded row. -/
def logText (m : LogMemory K) (steps : Nat) : List (Piece K) :=
  m.header ++ (List.range steps).flatMap m.row

end LogMemory

/-- The text of samples. -/
def textOf (samples : List (Quantity → Double K)) : List (Piece K) :=
  line quantities.length (fun j => .name (quantities[j]?.map Quantity.name)) ++
    samples.flatMap fun sample =>
      line quantities.length fun j => .value (quantities[j]?.map sample)

/-- The number of pieces of a line. -/
def lineLength (n : Nat) : Nat := ((List.range n).map fun j => if j + 1 < n then 2 else 1).sum + 1

theorem length_line (n : Nat) (entry : Nat → Piece K) : (line n entry).length = lineLength n := by
  rw [line, lineLength, List.length_append, List.length_flatMap, List.length_singleton]
  congr 3
  funext j
  split <;> rfl

theorem length_logText (m : LogMemory K) (steps : Nat) :
    (m.logText steps).length = (steps + 1) * lineLength m.logNumVars := by
  rw [LogMemory.logText, List.length_append, LogMemory.header, length_line, List.length_flatMap]
  simp only [LogMemory.row, length_line, List.map_const', List.sum_replicate_nat,
    List.length_range]
  rw [Nat.succ_mul, Nat.add_comm]

theorem line_congr {n : Nat} {entry entry' : Nat → Piece K} (same : ∀ j < n, entry j = entry' j) :
    line n entry = line n entry' := by
  unfold line
  rw [List.flatMap_congr fun j member => by rw [same j (List.mem_range.1 member)]]

theorem flatMap_range {α β : Type} (l : List α) {f : Nat → List β} {g : α → List β}
    (same : ∀ i x, l[i]? = some x → f i = g x) :
    (List.range l.length).flatMap f = l.flatMap g := by
  rw [List.flatMap_def, List.flatMap_def]
  refine congrArg _ (List.ext_getElem (by simp) fun i _ inside => ?_)
  rw [List.length_map] at inside
  simpa using same i l[i] (List.getElem?_eq_getElem inside)

end Text

namespace MoveCatersianImpWithGripper

variable {K : Type} [MachineArith K]

theorem Allocated.header {m : LogMemory K} (allocated : Allocated m) :
    m.header = line quantities.length fun j => .name (quantities[j]?.map Quantity.name) := by
  rw [LogMemory.header, allocated.numVars, allocated.names]
  exact line_congr fun j _ => by rw [List.getElem?_map]

theorem Written.row {m : LogMemory K} {steps : Nat} {samples : List (Quantity → Double K)}
    (holds : Written m steps samples) {i : Nat} {sample : Quantity → Double K}
    (below : i < logCapacitySteps) (there : samples[i]? = some sample) :
    m.row i = line quantities.length fun j => .value (quantities[j]?.map sample) := by
  obtain ⟨⟨-, numVars, cells, buffer, -⟩, -, rows⟩ := holds
  have here := rows cells buffer i sample below there
  rw [LogMemory.row, numVars, buffer]
  refine line_congr fun j inside => ?_
  have entry := congrArg (fun row => row[j]?) here
  simp only [rowAt, List.getElem?_take_of_lt inside, List.getElem?_drop, List.getElem?_map] at entry
  simp only [Option.bind_some, entry]

/-- The text of a log that has been written faithfully is that of its samples. -/
theorem logText_of_written {m : LogMemory K} {steps : Nat} {samples : List (Quantity → Double K)}
    (holds : Written m steps samples) :
    m.logText steps = textOf (samples.take logCapacitySteps) := by
  have length : steps = (samples.take logCapacitySteps).length := by
    rw [holds.steps, List.length_take, Nat.min_comm]
  rw [LogMemory.logText, textOf, holds.allocated.header, length]
  refine congrArg _ (flatMap_range _ fun i sample there => ?_)
  rw [List.getElem?_take] at there
  split at there
  · rename_i below
    exact holds.row below there
  · cases there

end MoveCatersianImpWithGripper

/-! ## The save -/

/-- What a save reads and writes: the flags, the memory, and what `log_save_path_` has been
written since it was chosen. -/
structure LogSave (K : Type) where
  log : Log K
  memory : LogMemory K
  file : Option (List (Piece K))

namespace LogSave

variable {K : Type} [MachineArith K]

def saveLogToTxtNonrt (disk : Disk) (o : LogSave K) : CallEnd × LogSave K :=
  if o.log.saveDone then (.done, o)
  else
    let o := { o with log := { o.log with saveDone := true } }
    if o.log.stepsWritten = 0 ∨ o.memory.logNumVars = 0 then (.done, o)
    else
      let o := { o with log := { o.log with started := false } }
      -- what it returns is not looked at
      if disk.createDirectories = .thrown then (.thrown, o)
      else
        match disk.openFile with
        | .thrown => (.thrown, o)
        | .failed => (.done, o)
        | .done =>
            let (ends, written) := emit disk.write 0 (o.memory.logText o.log.stepsWritten)
            (if ends = .thrown then .thrown else .done, { o with file := some written })

/-- The part of the housekeeping timer that serves a save request; it catches what is
thrown. -/
def housekeeping (disk : Disk) (o : LogSave K) : LogSave K :=
  if o.log.saveRequested then
    (saveLogToTxtNonrt disk { o with log := { o.log with saveRequested := false } }).2
  else o

/-- A request to save. -/
def request (o : LogSave K) : LogSave K := { o with log := { o.log with saveRequested := true } }

/-- `append_log_sample_rt` with these entries. -/
def append (o : LogSave K) (row : List (Double K)) : LogSave K :=
  if o.log.started = false then o
  else if MoveCatersianImpWithGripper.logCapacitySteps ≤ o.log.stepsWritten then o
  else
    let base := o.log.stepsWritten * o.memory.logNumVars
    let logBuffer := o.memory.logBuffer.bind fun cells => writeFrom base row cells
    { o with
      log := { o.log with stepsWritten := o.log.stepsWritten + 1 }
      memory := { o.memory with logBuffer } }

/-- The header and every recorded row are in the file. -/
def Complete (o : LogSave K) : Prop := o.file = some (o.memory.logText o.log.stepsWritten)

/-- What is expected of an attempt: it ends the logging only when it has saved the log, and
a request after it, whatever has been recorded by then, makes good for it. -/
structure AllOrNothing (disk : Disk) (o : LogSave K) : Prop where
  stopped : (o.saveLogToTxtNonrt disk).2.log.saveDone = true →
    (o.saveLogToTxtNonrt disk).2.log.started = false → (o.saveLogToTxtNonrt disk).2.Complete
  retried : ¬ (o.saveLogToTxtNonrt disk).2.Complete → ∀ rows,
    (run append (o.saveLogToTxtNonrt disk).2 rows).log.stepsWritten ≠ 0 →
      ((run append (o.saveLogToTxtNonrt disk).2 rows).request.housekeeping .working).Complete

/-- The append is that of the controller. -/
theorem append_logRow (frames : Frames K) (s : MoveCatersianImpWithGripper K) (m : LogMemory K)
    (file : Option (List (Piece K))) :
    append ⟨s.log, m, file⟩ (logRow frames s) =
      ⟨s.appendLogSample.log, appendLogSampleRt frames s m, file⟩ := by
  unfold append appendLogSampleRt MoveCatersianImpWithGripper.appendLogSample
  by_cases started : s.log.started = false
  · simp [started]
  · rw [Bool.not_eq_false] at started
    by_cases full : MoveCatersianImpWithGripper.logCapacitySteps ≤ s.log.stepsWritten
    · simp [started, full, Nat.not_lt.2 full]
    · simp [started, full, Nat.not_le.1 full]

/-! ## One attempt -/

/-- There is something to save, and nobody has tried yet. -/
def Attempts (o : LogSave K) : Prop :=
  o.log.saveDone = false ∧ o.log.stepsWritten ≠ 0 ∧ o.memory.logNumVars ≠ 0

/-- What an attempt writes, if it gets to the file. -/
def written (disk : Disk) (o : LogSave K) : List (Piece K) :=
  (emit disk.write 0 (o.memory.logText o.log.stepsWritten)).2

/-- Without an attempt, the latch is all that changes. -/
theorem save_of_not_attempts (disk : Disk) {o : LogSave K} (not : ¬ o.Attempts) :
    (o.saveLogToTxtNonrt disk).2 = { o with log := { o.log with saveDone := true } } := by
  unfold saveLogToTxtNonrt
  split
  · rename_i latched
    rw [← latched]
  · rename_i fresh
    rw [if_pos]
    · by_contra both
      rw [not_or] at both
      exact not ⟨by simpa using fresh, both⟩

/-- An attempt stops the logging, and opens the file if it can. -/
theorem save_of_attempts (disk : Disk) {o : LogSave K} (attempts : o.Attempts) :
    (o.saveLogToTxtNonrt disk).2 =
      ⟨{ o.log with saveDone := true, started := false }, o.memory,
        if disk.createDirectories ≠ .thrown ∧ disk.openFile = .done then
          some (o.written disk) else o.file⟩ := by
  obtain ⟨fresh, steps, numVars⟩ := attempts
  unfold saveLogToTxtNonrt
  simp only [fresh, steps, numVars, or_self, if_false, Bool.false_eq_true]
  by_cases directory : disk.createDirectories = .thrown
  · simp [directory]
  · rw [if_neg directory]
    cases file : disk.openFile <;> simp [directory, written]

/-- The flags are those of the controller, whatever the disk does. -/
theorem save_log (disk : Disk) (s : MoveCatersianImpWithGripper K) {m : LogMemory K}
    (numVars : m.logNumVars ≠ 0) (file : Option (List (Piece K))) :
    (saveLogToTxtNonrt disk ⟨s.log, m, file⟩).2.log = s.saveLogToTxt.log := by
  by_cases attempts : Attempts ⟨s.log, m, file⟩
  · have fresh : s.log.saveDone = false := attempts.1
    have steps : s.log.stepsWritten ≠ 0 := attempts.2.1
    rw [save_of_attempts disk attempts]
    simp [MoveCatersianImpWithGripper.saveLogToTxt, fresh, steps]
  · rw [save_of_not_attempts disk attempts, MoveCatersianImpWithGripper.saveLogToTxt]
    split
    · rename_i latched
      rw [← latched]
    · rename_i fresh
      have empty : s.log.stepsWritten = 0 := by
        by_contra steps
        exact attempts ⟨by simpa using fresh, steps, numVars⟩
      simp [empty]

theorem save_saveDone (disk : Disk) (o : LogSave K) :
    (o.saveLogToTxtNonrt disk).2.log.saveDone = true := by
  by_cases attempts : o.Attempts
  · rw [save_of_attempts disk attempts]
  · rw [save_of_not_attempts disk attempts]

/-! ## After it -/

/-- **The latch holds**: a request after an attempt is answered by nothing. -/
theorem housekeeping_latched (disk : Disk) {o : LogSave K} (latched : o.log.saveDone = true) :
    o.request.housekeeping disk = { o with log := { o.log with saveRequested := false } } := by
  have requested : o.request.log.saveRequested = true := rfl
  rw [housekeeping, if_pos requested, save_of_not_attempts]
  · simp only [request, ← latched]
  · rintro ⟨fresh, -⟩
    cases latched.symm.trans fresh

theorem append_latched (o : LogSave K) (row : List (Double K)) :
    (o.append row).file = o.file ∧ (o.append row).log.saveDone = o.log.saveDone := by
  unfold append
  split
  · exact ⟨rfl, rfl⟩
  split <;> exact ⟨rfl, rfl⟩

/-- The latch is not set back by samples either, so a failed attempt is made good for only if
its file happens to hold what has been recorded by then. -/
theorem retried_iff {o : LogSave K} (latched : o.log.saveDone = true)
    (rows : List (List (Double K))) :
    ((run append o rows).request.housekeeping .working).Complete ↔
      o.file = some ((run append o rows).memory.logText (run append o rows).log.stepsWritten) := by
  have kept : (run append o rows).file = o.file ∧ (run append o rows).log.saveDone = true := by
    refine run_invariant append (I := fun t => t.file = o.file ∧ t.log.saveDone = true)
      (A := fun _ => True) ?_ (fun _ _ => trivial) ⟨rfl, latched⟩
    rintro t row - ⟨file, latched⟩
    obtain ⟨file', saveDone⟩ := t.append_latched row
    exact ⟨file'.trans file, saveDone.trans latched⟩
  rw [Complete, housekeeping_latched .working kept.2, ← kept.1]

theorem append_of_started {o : LogSave K} (started : o.log.started = true)
    (room : o.log.stepsWritten < MoveCatersianImpWithGripper.logCapacitySteps)
    (row : List (Double K)) :
    (o.append row).log = { o.log with stepsWritten := o.log.stepsWritten + 1 } ∧
      (o.append row).memory.logNumVars = o.memory.logNumVars := by
  rw [append, if_neg (by rw [started]; decide), if_neg (Nat.not_le.2 room)]
  exact ⟨rfl, rfl⟩

/-! ## All or nothing -/

/-- A save is all or nothing if it is all. -/
theorem allOrNothing_iff_complete (disk : Disk) (o : LogSave K) :
    o.AllOrNothing disk ↔ (o.saveLogToTxtNonrt disk).2.Complete := by
  refine ⟨fun holds => ?_, fun complete => ⟨fun _ _ => complete, fun not => absurd complete not⟩⟩
  have latched := save_saveDone disk o
  by_contra incomplete
  have running : (o.saveLogToTxtNonrt disk).2.log.started = true := by
    by_contra stopped
    exact incomplete (holds.stopped latched (by simpa using stopped))
  have retried := fun rows steps =>
    (retried_iff latched rows).1 (holds.retried incomplete rows steps)
  generalize (o.saveLogToTxtNonrt disk).2 = t at incomplete running retried
  -- it has not been stopped, so samples can still come
  by_cases none : t.log.stepsWritten = 0
  · obtain ⟨one, vars⟩ := append_of_started running (by rw [none]; decide) []
    have running' : (t.append []).log.started = true := by
      rw [one]
      exact running
    have room : (t.append []).log.stepsWritten < MoveCatersianImpWithGripper.logCapacitySteps := by
      rw [one]
      show t.log.stepsWritten + 1 < _
      rw [none]
      decide
    obtain ⟨two, vars'⟩ := append_of_started running' room []
    have first := retried [[]] (by rw [run_cons, run_nil, one]; exact Nat.succ_ne_zero _)
    have second := retried [[], []] (by
      rw [run_cons, run_cons, run_nil, two]
      exact Nat.succ_ne_zero _)
    -- one file cannot hold both texts
    have lengths := congrArg List.length (Option.some.inj (first.symm.trans second))
    rw [length_logText, length_logText, run_cons, run_cons, run_cons, run_nil, run_nil, vars', vars,
      two, one, none] at lengths
    have positive : 0 < lineLength t.memory.logNumVars := Nat.succ_pos _
    simp only [Nat.zero_add] at lengths
    omega
  · exact incomplete (retried [] none)

/-- There is something to save, nobody has tried yet, and the file opens. -/
def Opens (disk : Disk) (o : LogSave K) : Prop :=
  o.Attempts ∧ disk.createDirectories ≠ .thrown ∧ disk.openFile = .done

theorem complete_iff (disk : Disk) (o : LogSave K) :
    (o.saveLogToTxtNonrt disk).2.Complete ↔
      (o.Opens disk →
        ∀ i < (o.memory.logText o.log.stepsWritten).length, disk.write i = .done) ∧
      (¬ o.Opens disk → o.Complete) := by
  have all := emit_eq_iff disk.write 0 (o.memory.logText o.log.stepsWritten)
  simp only [Nat.zero_add] at all
  by_cases attempts : o.Attempts
  · rw [save_of_attempts disk attempts, Complete]
    by_cases opened : disk.createDirectories ≠ .thrown ∧ disk.openFile = .done
    · have opens : o.Opens disk := ⟨attempts, opened⟩
      rw [if_pos opened, ← all, Option.some.injEq]
      simp only [opens, true_implies, not_true_eq_false, false_implies, and_true]
      exact Iff.rfl
    · have closed : ¬ o.Opens disk := fun opens => opened opens.2
      rw [if_neg opened]
      simp only [closed, false_implies, not_false_eq_true, true_implies, true_and]
      exact Iff.rfl
  · have closed : ¬ o.Opens disk := fun opens => attempts opens.1
    rw [save_of_not_attempts disk attempts]
    simp only [closed, false_implies, not_false_eq_true, true_implies, true_and]
    exact Iff.rfl

/-- **When a save is all or nothing**: where there are rows to save, nobody has tried before
and the file opens, no write fails; everywhere else, the file holds the log already. -/
theorem allOrNothing_iff (disk : Disk) (o : LogSave K) :
    o.AllOrNothing disk ↔
      (o.Opens disk →
        ∀ i < (o.memory.logText o.log.stepsWritten).length, disk.write i = .done) ∧
      (¬ o.Opens disk → o.Complete) :=
  (allOrNothing_iff_complete disk o).trans (complete_iff disk o)

/-- Before the file has been written, nothing may fail. -/
theorem allOrNothing_unwritten_iff (disk : Disk) (log : Log K) (memory : LogMemory K) :
    AllOrNothing disk ⟨log, memory, .none⟩ ↔
      (log.saveDone = false ∧ log.stepsWritten ≠ 0 ∧ memory.logNumVars ≠ 0) ∧
        disk.createDirectories ≠ .thrown ∧ disk.openFile = .done ∧
          ∀ i < (memory.logText log.stepsWritten).length, disk.write i = .done := by
  have unwritten : ¬ Complete ⟨log, memory, .none⟩ := nofun
  rw [allOrNothing_iff_complete, complete_iff]
  constructor
  · rintro ⟨writes, closed⟩
    have opens : Opens disk ⟨log, memory, .none⟩ := by
      by_contra other
      exact unwritten (closed other)
    exact ⟨opens.1, opens.2.1, opens.2.2, writes opens⟩
  · rintro ⟨attempts, directory, opened, writes⟩
    exact ⟨fun _ => writes, fun closed => absurd ⟨attempts, directory, opened⟩ closed⟩

/-- A log with one row. -/
def oneRow : LogSave ℚ where
  log :=
    { started := true, saveDone := false, stepsWritten := 1, timeStart := 0
      saveRequested := false, rlFinishLatched := false }
  memory := initLogSchemaAndBuffer
  file := .none

/-- The file does not open: the logging has stopped, and nothing is saved. -/
theorem notAllOrNothing_oneRow : ¬ oneRow.AllOrNothing ⟨.done, .failed, fun _ => .done⟩ := by
  intro holds
  have attempts : oneRow.Attempts := by
    refine ⟨rfl, Nat.one_ne_zero, ?_⟩
    rw [oneRow, MoveCatersianImpWithGripper.allocated_init.numVars, length_quantities]
    decide
  have stopped := holds.stopped
  rw [save_of_attempts _ attempts] at stopped
  cases stopped rfl rfl

/-! ## The samples of a run -/

/-- What is saved of a run in which nothing fails: the samples since `RUN_RL`. -/
theorem saved_run (params : Params K)
    (es : List (MoveCatersianImpWithGripper.Event K × Frames K)) :
    let o := run MoveCatersianImpWithGripper.Recording.step
      (MoveCatersianImpWithGripper.Recording.start params) es
    o.entered = true → o.controller.log.saveDone = false → 0 < o.samples.length →
      (saveLogToTxtNonrt .working ⟨o.controller.log, o.memory, .none⟩).2.file =
        some (textOf (o.samples.take MoveCatersianImpWithGripper.logCapacitySteps)) := by
  intro o entered fresh recorded
  have holds := (MoveCatersianImpWithGripper.Recording.recorded_run params es).written entered
  have steps : o.controller.log.stepsWritten ≠ 0 := by
    rw [holds.steps]
    exact Nat.ne_of_gt (Nat.lt_min.2 ⟨recorded, by decide⟩)
  have numVars : o.memory.logNumVars ≠ 0 := by
    rw [holds.allocated.numVars, length_quantities]
    decide
  have attempts : Attempts ⟨o.controller.log, o.memory, .none⟩ := ⟨fresh, steps, numVars⟩
  have complete := (complete_iff .working ⟨o.controller.log, o.memory, .none⟩).2
    ⟨fun _ _ _ => rfl, fun closed => absurd ⟨attempts, nofun, rfl⟩ closed⟩
  rw [Complete] at complete
  rw [complete, save_of_attempts _ attempts]
  exact congrArg _ (MoveCatersianImpWithGripper.logText_of_written holds)

end LogSave

end FrankaRos.Controller
