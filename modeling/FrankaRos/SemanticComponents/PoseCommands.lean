/-
# SemanticComponents.PoseCommands -- what a pose command leaves at the interfaces

Every overload that fits the elbow hands the right values to the interfaces, if all of them
are assigned and the vector was allocated as it was asked for (`setCommand_gives`).  But the
overloads with a quaternion write sixteen elements of a vector that has none, so that only
the two with a matrix stay within their vectors (`commandSound_iff`).
-/
import FrankaRos.SemanticComponents.FrankaCartesianPoseInterface
import Mathlib

namespace FrankaRos.SemanticComponents

open FrankaRos.Theory Accessing
open FrankaRos.RlAction (toRotationMatrix)

set_option autoImplicit false

variable {V : Type}

/-! ## What is asked of a command -/

/-- The homogeneous matrix of a rotation and a translation: three rows, each with its entry of
the translation, and a last one. -/
def homogeneous [Field V] (rotation : Matrix (Fin 3) (Fin 3) V) (translation : Fin 3 → V) :
    Matrix (Fin 4) (Fin 4) V :=
  Fin.snoc (α := fun _ => Fin 4 → V)
    (fun i => Fin.snoc (α := fun _ => V) (rotation i) (translation i))
    (Fin.snoc (α := fun _ => V) (fun _ => 0) 1)

namespace Command

variable [Field V]

/-- The column-major matrix of the requested pose. -/
def requestedPose : Command V → List.Vector V 16
  | quaternion q translation | quaternionElbow q translation _ =>
      columnMajor (homogeneous (toRotationMatrix q) translation)
  | poseElbow cartesianPoseCommand _ | pose cartesianPoseCommand => cartesianPoseCommand

def elbow : Command V → Option (List.Vector V 2)
  | quaternionElbow _ _ elbowCommand | poseElbow _ elbowCommand => some elbowCommand
  | quaternion _ _ | pose _ => none

/-- The values for the interfaces, in their order. -/
def entries (command : Command V) : List V :=
  command.requestedPose.toList ++ (command.elbow.map List.Vector.toList).getD []

/-- The overload is the one for a pose with, or without, the elbow. -/
def Matches (command : Command V) (self : FrankaCartesianPoseInterface) : Prop :=
  self.commandElbowActive = command.elbow.isSome

/-- The overloads that take a matrix. -/
def IsMatrix : Command V → Prop
  | quaternion _ _ | quaternionElbow _ _ _ => False
  | poseElbow _ _ | pose _ => True

/-- The capacity of the vector that is handed to `set_values`. -/
def capacity (growth : Growth) : Command V → Nat
  | quaternion _ _ => growth.reserved 16
  | quaternionElbow _ _ _ | poseElbow _ _ => growth.reserved (16 + 2)
  | pose _ => growth.grown 0 16

end Command

namespace FrankaCartesianPoseInterface

/-- All command interfaces are assigned. -/
def Complete (self : FrankaCartesianPoseInterface) : Prop :=
  self.commandInterfaces = commandInterfaceNames self.commandElbowActive

/-- The interfaces hold the entries of the command, and they are read back. -/
def Written [Field V] (self : FrankaCartesianPoseInterface) (growth : Growth)
    (command : Command V) (store : String → V) : Prop :=
  (commandInterfaceNames self.commandElbowActive).map store = command.entries ∧
    Clean (self.getCommandedPoseMatrix growth store) command.requestedPose ∧
    (∀ ofMatrix, Clean (self.getCommandedOrientationAndTranslation growth ofMatrix store)
      (ofMatrix fun i j => ofColumnMajor command.requestedPose i.castSucc j.castSucc,
        fun i => ofColumnMajor command.requestedPose i.castSucc (Fin.last 3))) ∧
    ∀ elbow, command.elbow = some elbow →
      Clean (self.getCommandedElbowConfiguration growth store) (.ok elbow)

/-- `setCommand` succeeds exactly for a matching overload with all interfaces assigned, and
leaves the command there; otherwise it leaves everything as it was; and every access is to
an element of its vector. -/
def CommandSound [Field V] (self : FrankaCartesianPoseInterface) (growth : Growth)
    (command : Command V) (store : String → V) : Prop :=
  ∃ ok after, Clean (self.setCommand growth command store) (ok, after) ∧
    (ok = true ↔ command.Matches self ∧ self.Complete) ∧
    (ok = true → self.Written growth command after) ∧ (ok = false → after = store)

/-! ## The interfaces' names -/

theorem commandInterfaceNames_nodup (commandElbowActive : Bool) :
    (commandInterfaceNames commandElbowActive).Nodup := by
  cases commandElbowActive with
  | false => decide
  | true => decide

theorem length_commandInterfaceNames (commandElbowActive : Bool) :
    (commandInterfaceNames commandElbowActive).length = if commandElbowActive then 18 else 16 := by
  cases commandElbowActive with
  | false => rfl
  | true => rfl

theorem length_entries [Field V] {self : FrankaCartesianPoseInterface} {command : Command V}
    (fits : command.Matches self) :
    command.entries.length = (commandInterfaceNames self.commandElbowActive).length := by
  rw [length_commandInterfaceNames, fits]
  cases command with
  | quaternion q translation => simp [Command.entries, Command.elbow]
  | quaternionElbow q translation elbow => simp [Command.entries, Command.elbow]
  | poseElbow pose elbow => simp [Command.entries, Command.elbow]
  | pose pose => simp [Command.entries, Command.elbow]

theorem length_interfaces_le (self : FrankaCartesianPoseInterface) :
    self.commandInterfaces.length ≤ (commandInterfaceNames self.commandElbowActive).length :=
  self.ordered.length_le

/-- With as many interfaces as names, every one of them is assigned. -/
theorem complete_iff (self : FrankaCartesianPoseInterface) :
    self.Complete ↔ self.commandInterfaces.length =
      (commandInterfaceNames self.commandElbowActive).length :=
  ⟨fun complete => congrArg List.length complete, self.ordered.eq_of_length⟩

/-! ## Setting values -/

/-- The loop sets what the cells hold.  It reads elements if there are as many. -/
theorem gives_setFrom {values : Buffer V} {names : List String} {held : List V} {count i : Nat}
    (stored : held.map some <+: values.cells.drop i) (enough : names.length ≤ held.length)
    (bound : i + names.length ≤ count) (store : String → V) :
    ∃ accesses, Gives (setFrom values count i names store)
        (writeAll Prod.fst Prod.snd (names.zip held) store) accesses ∧
      (i + names.length ≤ values.size → ∀ access ∈ accesses, access.Within) := by
  induction names generalizing i held store with
  | nil => exact ⟨[], gives_pure store, fun _ => by simp⟩
  | cons name names ih =>
      cases held with
      | nil => simp at enough
      | cons v held =>
          rw [List.length_cons] at bound
          obtain ⟨first, later⟩ := Buffer.of_cons_prefix_drop stored
          obtain ⟨accesses, run, within⟩ :=
            ih later (Nat.le_of_succ_le_succ enough) (by omega) (Function.update store name v)
          refine ⟨_, (gives_note _).bind ((Buffer.gives_read first).bind run), ?_⟩
          rw [List.length_cons]
          intro fits access member
          rcases List.mem_cons.1 member with rfl | member
          · show i < count
            omega
          · rcases List.mem_cons.1 member with rfl | member
            · show i < values.size
              omega
            · exact within (by omega) access member

/-- What `set_values` does with a vector of these values. -/
def assigned (self : FrankaCartesianPoseInterface) (capacity : Nat) (held : List V)
    (store : String → V) : Bool × (String → V) :=
  if capacity = self.commandInterfaces.length then
    (true, writeAll Prod.fst Prod.snd (self.commandInterfaces.zip held) store)
  else (false, store)

theorem gives_setValues (self : FrankaCartesianPoseInterface) {values : Buffer V}
    {held : List V} (stored : held.map some <+: values.cells)
    (enough : self.commandInterfaces.length ≤ held.length) (store : String → V) :
    ∃ accesses, Gives (self.setValues values store) (self.assigned values.capacity held store)
        accesses ∧
      (self.commandInterfaces.length ≤ values.size → ∀ access ∈ accesses, access.Within) := by
  unfold setValues assigned
  by_cases fits : values.capacity = self.commandInterfaces.length
  · obtain ⟨accesses, run, within⟩ :=
      gives_setFrom (i := 0) stored enough (Nat.zero_add _).le store
    rw [if_neg (not_not.2 fits), if_pos fits]
    refine ⟨accesses, run.map _, ?_⟩
    rwa [Nat.zero_add] at within
  · rw [if_pos fits, if_neg fits]
    exact ⟨[], gives_pure _, fun _ => by simp⟩

/-! ## The vectors of a command -/

theorem contents_combine (growth : Growth) (pose : List.Vector V 16) (elbow : List.Vector V 2) :
    (combineArraysToVector growth pose elbow).contents =
      (pose.toList ++ elbow.toList).map some := by
  simp only [combineArraysToVector, Buffer.contents_insertEnd, Buffer.contents_reserve,
    List.map_append]
  rfl

theorem capacity_combine (growth : Growth) (pose : List.Vector V 16) (elbow : List.Vector V 2) :
    (combineArraysToVector growth pose elbow).capacity = growth.reserved (16 + 2) := by
  have room := growth.le_reserved (16 + 2)
  have reserved := Buffer.capacity_reserve_empty (V := V) growth (n := 16 + 2) (by decide)
  have none := (Buffer.empty : Buffer V).size_reserve growth (16 + 2)
  have first : (((Buffer.empty : Buffer V).reserve growth (16 + 2)).insertEnd growth
      pose.toList).capacity = growth.reserved (16 + 2) := by
    rw [Buffer.capacity_insertEnd_of_le, reserved]
    rw [none, reserved, pose.toList_length]
    show 0 + 16 ≤ growth.reserved (16 + 2)
    omega
  unfold combineArraysToVector
  rw [Buffer.capacity_insertEnd_of_le, first]
  rw [first, Buffer.size_insertEnd, none, pose.toList_length, elbow.toList_length]
  exact room

/-- Handing over the vector of a pose and an elbow touches its elements only. -/
theorem gives_setValues_combine {self : FrankaCartesianPoseInterface} {growth : Growth}
    {pose : List.Vector V 16} {elbow : List.Vector V 2}
    (enough : self.commandInterfaces.length ≤ (pose.toList ++ elbow.toList).length)
    (store : String → V) :
    ∃ accesses, Gives (self.setValues (combineArraysToVector growth pose elbow) store)
        (self.assigned (growth.reserved (16 + 2)) (pose.toList ++ elbow.toList) store) accesses ∧
      ∀ access ∈ accesses, access.Within := by
  have contents := contents_combine growth pose elbow
  obtain ⟨accesses, run, within⟩ :=
    self.gives_setValues (Buffer.isPrefix_of_contents contents) enough store
  rw [capacity_combine] at run
  exact ⟨accesses, run, within (Buffer.size_of_contents contents ▸ enough)⟩

/-- So does handing over the vector that a pose is inserted into. -/
theorem gives_setValues_insert {self : FrankaCartesianPoseInterface} {growth : Growth}
    {pose : List.Vector V 16} (enough : self.commandInterfaces.length ≤ pose.toList.length)
    (store : String → V) :
    ∃ accesses, Gives (self.setValues (Buffer.empty.insertEnd growth pose.toList) store)
        (self.assigned (growth.grown 0 16) pose.toList store) accesses ∧
      ∀ access ∈ accesses, access.Within := by
  have contents : ((Buffer.empty : Buffer V).insertEnd growth pose.toList).contents =
      pose.toList.map some := by
    rw [Buffer.contents_insertEnd]
    rfl
  have capacity : ((Buffer.empty : Buffer V).insertEnd growth pose.toList).capacity =
      growth.grown 0 16 := by
    rw [Buffer.capacity_insertEnd_of_lt, pose.toList_length]
    · rfl
    · rw [pose.toList_length]
      exact (by decide : 0 < 0 + 16)
  obtain ⟨accesses, run, within⟩ :=
    self.gives_setValues (Buffer.isPrefix_of_contents contents) enough store
  rw [capacity] at run
  exact ⟨accesses, run, within (Buffer.size_of_contents contents ▸ enough)⟩

theorem contents_getValues (self : FrankaCartesianPoseInterface) (growth : Growth)
    (store : String → V) :
    (self.getValuesCommandInterfaces growth store).contents =
      (self.commandInterfaces.map store).map some := by
  have read := Buffer.contents_foldl growth (self.commandInterfaces.map store) Buffer.empty
  rwa [List.foldl_map] at read

variable [Field V]

theorem poseMatrix_eq (quaternion : Quaternion V) (translation : Fin 3 → V) :
    poseMatrix quaternion translation =
      homogeneous (toRotationMatrix quaternion) translation := by
  ext i j
  fin_cases i <;> fin_cases j <;> rfl

/-- The map writes the requested matrix into the reserved storage, behind the size. -/
theorem gives_createColumnMajorTransformationMatrix (growth : Growth)
    (quaternion : Quaternion V) (translation : Fin 3 → V) :
    ∃ values, Gives (createColumnMajorTransformationMatrix growth quaternion translation) values
        (Buffer.accesses 0 0 16) ∧
      values.capacity = growth.reserved 16 ∧
      (columnMajor (homogeneous (toRotationMatrix quaternion) translation)).toList.map some <+:
        values.cells := by
  have reserved := Buffer.capacity_reserve_empty (V := V) growth (n := 16) (by decide)
  have none := (Buffer.empty : Buffer V).size_reserve growth 16
  have enough := growth.le_reserved 16
  have room : 0 + (columnMajor (poseMatrix quaternion translation)).toList.length ≤
      ((Buffer.empty : Buffer V).reserve growth 16).capacity := by
    rw [reserved, List.Vector.toList_length]
    omega
  obtain ⟨values, run, -, cells⟩ := Buffer.gives_writeFrom room
  rw [none, List.Vector.toList_length] at run
  rw [List.Vector.toList_length, List.take_zero, List.nil_append] at cells
  refine ⟨values, run, ?_, ?_⟩
  · rw [Buffer.capacity, cells, List.length_append, List.length_map, List.Vector.toList_length,
      List.length_drop]
    unfold Buffer.capacity at reserved
    omega
  · rw [cells, poseMatrix_eq]
    exact List.prefix_append _ _

/-! ## A command -/

/-- A matching overload hands its entries to `set_values`, in a vector of its capacity.  It
stays within its vectors if it takes a matrix, and only then. -/
theorem gives_setCommand {self : FrankaCartesianPoseInterface} {command : Command V}
    (fits : command.Matches self) (growth : Growth) (store : String → V) :
    ∃ accesses, Gives (self.setCommand growth command store)
        (self.assigned (command.capacity growth) command.entries store) accesses ∧
      ((∀ access ∈ accesses, access.Within) ↔ command.IsMatrix) := by
  have enough : self.commandInterfaces.length ≤ command.entries.length :=
    length_entries fits ▸ self.length_interfaces_le
  cases command with
  | quaternion q translation =>
      have inactive : self.commandElbowActive = false := fits
      obtain ⟨values, wrote, capacity, stored⟩ :=
        gives_createColumnMajorTransformationMatrix growth q translation
      have entries : (Command.quaternion q translation).entries =
          (columnMajor (homogeneous (toRotationMatrix q) translation)).toList :=
        List.append_nil _
      rw [← entries] at stored
      obtain ⟨accesses, run, -⟩ := self.gives_setValues stored enough store
      rw [capacity] at run
      refine ⟨Buffer.accesses 0 0 16 ++ accesses, ?_, ?_⟩
      · simp only [setCommand, inactive, Bool.false_eq_true, if_false]
        exact wrote.bind run
      · exact iff_of_false (Buffer.not_within_of_unsized (by decide)) id
  | quaternionElbow q translation elbow =>
      have active : self.commandElbowActive = true := fits
      obtain ⟨values, wrote, -, stored⟩ :=
        gives_createColumnMajorTransformationMatrix growth q translation
      obtain ⟨accesses, run, -⟩ := gives_setValues_combine enough store
      refine ⟨Buffer.accesses 0 0 16 ++ (Buffer.accesses values.size 0 16 ++ accesses), ?_, ?_⟩
      · simp only [setCommand, active, Bool.not_true, Bool.false_eq_true, if_false]
        exact wrote.bind ((Buffer.gives_readFrom stored).bind run)
      · exact iff_of_false (Buffer.not_within_of_unsized (by decide)) id
  | poseElbow pose elbow =>
      have active : self.commandElbowActive = true := fits
      obtain ⟨accesses, run, within⟩ := gives_setValues_combine enough store
      refine ⟨accesses, ?_, iff_of_true within trivial⟩
      simp only [setCommand, active, Bool.not_true, Bool.false_eq_true, if_false]
      exact run
  | pose pose =>
      have inactive : self.commandElbowActive = false := fits
      have entries : (Command.pose pose).entries = pose.toList := List.append_nil _
      rw [entries] at enough ⊢
      obtain ⟨accesses, run, within⟩ := gives_setValues_insert enough store
      refine ⟨accesses, ?_, iff_of_true within trivial⟩
      simp only [setCommand, inactive, Bool.false_eq_true, if_false]
      exact run

/-- An overload that does not fit the elbow is refused. -/
theorem setCommand_of_not_matches {self : FrankaCartesianPoseInterface} {command : Command V}
    (other : ¬ command.Matches self) (growth : Growth) (store : String → V) :
    self.setCommand growth command store = pure (false, store) := by
  unfold Command.Matches at other
  cases command with
  | quaternion q translation => exact if_pos (by simpa [Command.elbow] using other)
  | quaternionElbow q translation elbow => exact if_pos (by simpa [Command.elbow] using other)
  | poseElbow pose elbow => exact if_pos (by simpa [Command.elbow] using other)
  | pose pose => exact if_pos (by simpa [Command.elbow] using other)

/-- With every interface assigned, the entries are at the interfaces and are read back. -/
theorem written_of_complete {self : FrankaCartesianPoseInterface} {command : Command V}
    (fits : command.Matches self) (complete : self.Complete) (growth : Growth)
    (store : String → V) :
    self.Written growth command
      (writeAll Prod.fst Prod.snd (self.commandInterfaces.zip command.entries) store) := by
  generalize stored : writeAll Prod.fst Prod.snd (self.commandInterfaces.zip command.entries)
    store = after
  have held : (commandInterfaceNames self.commandElbowActive).map after = command.entries := by
    rw [← stored, complete]
    exact map_writeAll_zip (commandInterfaceNames_nodup _) (length_entries fits).symm store
  have contents : (self.getValuesCommandInterfaces growth after).contents =
      command.entries.map some := by
    rw [contents_getValues, complete, held]
  have first : (self.getValuesCommandInterfaces growth after).contents =
      ([] ++ command.requestedPose.toList ++
        (command.elbow.map List.Vector.toList).getD []).map some := contents
  have pose : Clean (self.getCommandedPoseMatrix growth after) command.requestedPose :=
    Buffer.clean_readFrom (by decide : 0 < 16) first
  refine ⟨held, pose, ?_, ?_⟩
  · intro ofMatrix
    obtain ⟨accesses, run, within⟩ := pose
    exact ⟨accesses, run.map _, within⟩
  · intro elbow given
    have active : self.commandElbowActive = true := by rw [fits, given, Option.isSome_some]
    have last : (self.getValuesCommandInterfaces growth after).contents =
        (command.requestedPose.toList ++ elbow.toList ++ []).map some := by
      rw [contents, Command.entries, given, List.append_nil]
      rfl
    have read := Buffer.clean_readFrom (by decide : 0 < 2) last
    rw [List.Vector.toList_length] at read
    obtain ⟨accesses, run, within⟩ := read
    refine ⟨accesses, ?_, within⟩
    simp only [getCommandedElbowConfiguration, active, Bool.not_true, Bool.false_eq_true, if_false]
    exact run.map _

/-! ## The four overloads -/

theorem entries_le_capacity {self : FrankaCartesianPoseInterface} {command : Command V}
    (fits : command.Matches self) (matrix : command.IsMatrix) (growth : Growth) :
    command.entries.length ≤ command.capacity growth := by
  rw [length_entries fits, length_commandInterfaceNames, fits]
  cases command with
  | quaternion q translation => cases matrix
  | quaternionElbow q translation elbow => cases matrix
  | poseElbow pose elbow => exact growth.le_reserved 18
  | pose pose => exact growth.le_grown 0 16

/-- Only an overload that takes a matrix stays within its vectors. -/
theorem isMatrix_of_sound {self : FrankaCartesianPoseInterface} {growth : Growth}
    {command : Command V} {store : String → V} (fits : command.Matches self)
    (sound : self.CommandSound growth command store) : command.IsMatrix := by
  obtain ⟨accesses, run, within⟩ := gives_setCommand fits growth store
  obtain ⟨ok, after, ⟨noted, run', clean⟩, -⟩ := sound
  obtain ⟨-, rfl⟩ := run.unique run'
  exact within.1 clean

/-- For a vector that has room to spare, `set_values` refuses all interfaces. -/
theorem capacity_of_sound {self : FrankaCartesianPoseInterface} {growth : Growth}
    {command : Command V} {store : String → V} (fits : command.Matches self)
    (complete : self.Complete) (sound : self.CommandSound growth command store) :
    command.capacity growth = self.commandInterfaces.length := by
  obtain ⟨accesses, run, -⟩ := gives_setCommand fits growth store
  obtain ⟨ok, after, ⟨noted, run', -⟩, success, -⟩ := sound
  obtain ⟨outcome, -⟩ := run.unique run'
  by_contra other
  rw [assigned, if_neg other] at outcome
  obtain rfl := (Prod.mk.inj outcome).1
  exact absurd (success.2 ⟨fits, complete⟩) Bool.false_ne_true

/-- An overload that does not fit is refused as it should be.  One that fits does what is
asked exactly if it takes a matrix and, for all interfaces, its vector has no room to
spare. -/
theorem commandSound_iff (self : FrankaCartesianPoseInterface) (growth : Growth)
    (command : Command V) (store : String → V) :
    self.CommandSound growth command store ↔
      (command.Matches self → command.IsMatrix ∧
        (self.Complete → command.capacity growth =
          (commandInterfaceNames self.commandElbowActive).length)) := by
  by_cases fits : command.Matches self
  · constructor
    · intro sound _
      refine ⟨isMatrix_of_sound fits sound, fun complete => ?_⟩
      rw [capacity_of_sound fits complete sound, self.complete_iff.1 complete]
    · intro sound
      obtain ⟨accesses, run, within⟩ := gives_setCommand fits growth store
      obtain ⟨matrix, sized⟩ := sound fits
      by_cases complete : self.Complete
      · have same : command.capacity growth = self.commandInterfaces.length :=
          (sized complete).trans (self.complete_iff.1 complete).symm
        rw [assigned, if_pos same] at run
        refine ⟨true, _, ⟨accesses, run, within.2 matrix⟩, ?_, ?_, ?_⟩
        · exact iff_of_true rfl ⟨fits, complete⟩
        · exact fun _ => written_of_complete fits complete growth store
        · exact fun refused => absurd refused (by decide)
      · have room := entries_le_capacity fits matrix growth
        -- fewer interfaces than entries, and the entries have room: the capacity is another
        have fewer := lt_of_le_of_ne self.length_interfaces_le (mt self.complete_iff.2 complete)
        rw [length_entries fits] at room
        have other : command.capacity growth ≠ self.commandInterfaces.length := by omega
        rw [assigned, if_neg other] at run
        refine ⟨false, store, ⟨accesses, run, within.2 matrix⟩, ?_, ?_, fun _ => rfl⟩
        · exact iff_of_false Bool.false_ne_true fun both => complete both.2
        · exact fun set => absurd set Bool.false_ne_true
  · have refused := setCommand_of_not_matches fits growth store
    refine iff_of_true ⟨false, store, ?_, ?_, ?_, fun _ => rfl⟩ fun matching => absurd matching fits
    · rw [refused]
      exact ⟨[], gives_pure _, by simp⟩
    · exact iff_of_false Bool.false_ne_true fun both => fits both.1
    · exact fun set => absurd set Bool.false_ne_true

/-! ## A quaternion with all interfaces assigned -/

/-- The quaternion with the entries 0, 1, 2 and 3, and the translation to (4, 5, 6). -/
def turned : Command ℚ :=
  .quaternion ⟨(0 : ℕ), (1 : ℕ), (2 : ℕ), (3 : ℕ)⟩ fun i => (i.val + 4 : ℕ)

/-- The component with every interface it asks for. -/
def allAssigned (commandElbowActive : Bool) : FrankaCartesianPoseInterface :=
  ⟨commandElbowActive, commandInterfaceNames commandElbowActive, List.Sublist.refl _⟩

theorem not_commandSound_quaternion :
    (allAssigned false).Complete ∧
      ¬ (allAssigned false).CommandSound Growth.doubling turned fun _ => (0 : ℕ) := by
  refine ⟨rfl, fun sound => ?_⟩
  refine isMatrix_of_sound ?_ sound
  rfl

end FrankaCartesianPoseInterface

end FrankaRos.SemanticComponents
