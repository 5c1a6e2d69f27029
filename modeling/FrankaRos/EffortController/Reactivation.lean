/-
# EffortController.Reactivation -- the handle vectors over repeated activations

`on_activate` appends to its handle vectors and trusts that they were empty; it
returns early at the first that does not come out with one entry per joint.  A
deactivation clears three of the four vectors, and only if the activation before
it went all the way.  So the fourth, the position commands, is never cleared, and
nothing is after a failed attempt.

`activates_iff` is what one activation amounts to: with all interfaces there, it
does what it should if and only if the vectors it fills are empty (and nothing is
loaned twice).  `along_activates` carries that over whole runs.
-/
import FrankaRos.EffortController.EffortControllerBase
import FrankaRos.Theory.Run

namespace FrankaRos.EffortController

open FrankaRos.Theory

set_option autoImplicit false

/-- One handle vector of an activation: what it is filled from, the type of its
interfaces, and the handles in it. -/
structure Slot (I : Type) where
  loaned : List I
  type : String
  handles : List I

namespace Slot

variable {I : Type} (lib : OrderedInterfaces I) (names : List String) (v : Slot I)

/-- The loaned interfaces of one joint. -/
def matching (name : String) : List I :=
  v.loaned.filter fun i => decide (lib.getName i = name ++ "/" ++ v.type)

/-- What an activation appends. -/
def found : List I := names.flatMap (v.matching lib)

/-- Every joint has an interface of this type. -/
def Present : Prop := ∀ name ∈ names, v.matching lib name ≠ []

/-- No joint has more than one. -/
def Once : Prop := ∀ name ∈ names, (v.matching lib name).length ≤ 1

/-- The vector comes out with as many entries as there are joints. -/
def Fits : Prop := (v.handles ++ v.found lib names).length = names.length

instance : Decidable (v.Present lib names) := inferInstanceAs (Decidable (∀ name ∈ names, _ ≠ _))
instance : Decidable (v.Once lib names) := inferInstanceAs (Decidable (∀ name ∈ names, _ ≤ _))
instance : Decidable (v.Fits lib names) := inferInstanceAs (Decidable (_ = _))

/-- Exactly one handle per joint, in joint order. -/
def Ordered : Prop := v.handles.map lib.getName = names.map fun name => name ++ "/" ++ v.type

/-- The vector after an activation. -/
def fill : Slot I := { v with handles := v.handles ++ v.found lib names }

variable {lib names v}

theorem found_of_present (present : v.Present lib names) (once : v.Once lib names) :
    (v.found lib names).map lib.getName = names.map fun name => name ++ "/" ++ v.type := by
  unfold found
  induction names with
  | nil => rfl
  | cons name names ih =>
      have rest := ih (fun n member => present n (List.mem_cons_of_mem name member))
        (fun n member => once n (List.mem_cons_of_mem name member))
      rw [List.flatMap_cons, List.map_append, rest, List.map_cons]
      have here := present name List.mem_cons_self
      have one := once name List.mem_cons_self
      obtain ⟨i, only⟩ : ∃ i, v.matching lib name = [i] :=
        List.length_eq_one_iff.1 (le_antisymm one (List.length_pos_iff.2 here))
      have member : i ∈ v.matching lib name := by simp [only]
      have named : lib.getName i = name ++ "/" ++ v.type := by
        simpa using (List.mem_filter.1 member).2
      simp [only, named]

/-- With every joint there, nothing less than one handle per joint is appended. -/
theorem length_le_found (present : v.Present lib names) :
    names.length ≤ (v.found lib names).length := by
  unfold found
  induction names with
  | nil => exact Nat.zero_le _
  | cons name names ih =>
      have rest := ih fun n member => present n (List.mem_cons_of_mem name member)
      have here := List.length_pos_iff.2 (present name List.mem_cons_self)
      rw [List.flatMap_cons, List.length_append, List.length_cons]
      omega

/-- ... and nothing more only if no interface is loaned twice. -/
theorem once_of_length (present : v.Present lib names)
    (length : (v.found lib names).length = names.length) : v.Once lib names := by
  unfold found at length
  induction names with
  | nil => exact fun _ member => by cases member
  | cons name names ih =>
      have later : v.Present lib names :=
        fun n member => present n (List.mem_cons_of_mem name member)
      have here := List.length_pos_iff.2 (present name List.mem_cons_self)
      have bound := length_le_found later
      unfold found at bound
      rw [List.flatMap_cons, List.length_append, List.length_cons] at length
      intro n member
      rcases List.mem_cons.1 member with rfl | member
      · omega
      · exact ih later (by omega) n member

/-- With every joint there, a vector fits exactly when it was empty and nothing is
loaned twice; it then holds one handle per joint, in joint order. -/
theorem fits_iff (present : v.Present lib names) :
    v.Fits lib names ↔ v.handles = [] ∧ v.Once lib names := by
  unfold Fits
  rw [List.length_append]
  constructor
  · intro fits
    have bound := length_le_found present
    have empty : v.handles.length = 0 := by omega
    exact ⟨List.length_eq_zero_iff.1 empty, once_of_length present (by omega)⟩
  · rintro ⟨empty, once⟩
    have length := congrArg List.length (found_of_present present once)
    rw [List.length_map, List.length_map] at length
    rw [empty, length]
    exact Nat.zero_add _

theorem ordered_fill (present : v.Present lib names) (empty : v.handles = [])
    (once : v.Once lib names) : (v.fill lib names).Ordered lib names := by
  unfold Ordered fill
  rw [empty]
  exact found_of_present present once

end Slot

namespace Configured

variable {K I : Type} [MachineArith K] (c : Configured K) (lib : OrderedInterfaces I)

/-! ## One activation -/

/-- The vectors an activation fills, in its order. -/
def slots (commands states : List I) (s : EffortControllerBase K I c.numJoints) : List (Slot I) :=
  (if c.commandCurrentConfiguration then [⟨commands, hwIfPosition, s.jointCmdPosHandles⟩] else []) ++
    [⟨commands, hwIfEffort, s.jointCmdEffHandles⟩, ⟨states, hwIfPosition, s.jointStatePosHandles⟩,
      ⟨states, hwIfVelocity, s.jointStateVelHandles⟩]

/-- Every interface the controller uses has been loaned. -/
def AllPresent (commands states : List I) (s : EffortControllerBase K I c.numJoints) : Prop :=
  ∀ v ∈ c.slots commands states s, v.Present lib c.names

/-- The vectors are empty, and nothing in them is loaned twice. -/
def Clean (commands states : List I) (s : EffortControllerBase K I c.numJoints) : Prop :=
  ∀ v ∈ c.slots commands states s, v.handles = [] ∧ v.Once lib c.names

/-- Some vector does not come out with one entry per joint. -/
def Misfit (commands states : List I) (s : EffortControllerBase K I c.numJoints) : Prop :=
  ∃ v ∈ c.slots commands states s, ¬ v.Fits lib c.names

/-- Every vector the controller uses has one handle per joint, in joint order. -/
def AllOrdered (commands states : List I) (s : EffortControllerBase K I c.numJoints) : Prop :=
  ∀ v ∈ c.slots commands states s, v.Ordered lib c.names

instance (commands states : List I) (s : EffortControllerBase K I c.numJoints) :
    Decidable (c.AllPresent lib commands states s) :=
  inferInstanceAs (Decidable (∀ v ∈ c.slots commands states s, _))

instance (commands states : List I) (s : EffortControllerBase K I c.numJoints) :
    Decidable (c.Clean lib commands states s) :=
  inferInstanceAs (Decidable (∀ v ∈ c.slots commands states s, _ ∧ _))

theorem getOrderedInterfaces_eq (v : Slot I) :
    lib.getOrderedInterfaces v.loaned c.names v.type v.handles =
      (decide (v.Fits lib c.names), (v.fill lib c.names).handles) := by
  have appends := lib.appends v.loaned c.names v.type v.handles
  have complete := lib.complete v.loaned c.names v.type v.handles
  rw [appends] at complete
  exact Prod.ext complete appends

section Filling

variable (commands states : List I) (s : EffortControllerBase K I c.numJoints)

/-- The position commands after an activation. -/
def cmdPosFilled : List I :=
  if c.commandCurrentConfiguration then
    (Slot.fill lib c.names ⟨commands, hwIfPosition, s.jointCmdPosHandles⟩).handles
  else s.jointCmdPosHandles

/-- The controller with every vector filled. -/
def filled : EffortControllerBase K I c.numJoints :=
  { s with
    jointCmdPosHandles := c.cmdPosFilled lib commands s
    jointCmdEffHandles :=
      (Slot.fill lib c.names ⟨commands, hwIfEffort, s.jointCmdEffHandles⟩).handles
    jointStatePosHandles :=
      (Slot.fill lib c.names ⟨states, hwIfPosition, s.jointStatePosHandles⟩).handles
    jointStateVelHandles :=
      (Slot.fill lib c.names ⟨states, hwIfVelocity, s.jointStateVelHandles⟩).handles }

variable {c s}

/-- An activation of an inactive controller fills the vectors one after the other, up to
the first that does not fit. -/
theorem onActivate_eq (inactive : s.active = false) :
    c.onActivate lib commands states s =
      if c.commandCurrentConfiguration = true ∧
          ¬ Slot.Fits lib c.names ⟨commands, hwIfPosition, s.jointCmdPosHandles⟩ then
        (.error, { s with jointCmdPosHandles := c.cmdPosFilled lib commands s })
      else if ¬ Slot.Fits lib c.names ⟨commands, hwIfEffort, s.jointCmdEffHandles⟩ then
        (.error, { c.filled lib commands states s with
          jointStatePosHandles := s.jointStatePosHandles
          jointStateVelHandles := s.jointStateVelHandles })
      else if ¬ Slot.Fits lib c.names ⟨states, hwIfPosition, s.jointStatePosHandles⟩ then
        (.error, { c.filled lib commands states s with
          jointStateVelHandles := s.jointStateVelHandles })
      else if ¬ Slot.Fits lib c.names ⟨states, hwIfVelocity, s.jointStateVelHandles⟩ then
        (.error, c.filled lib commands states s)
      else (.success, { c.filled lib commands states s with active := true }) := by
  have pos := c.getOrderedInterfaces_eq lib ⟨commands, hwIfPosition, s.jointCmdPosHandles⟩
  have eff := c.getOrderedInterfaces_eq lib ⟨commands, hwIfEffort, s.jointCmdEffHandles⟩
  have statePos := c.getOrderedInterfaces_eq lib ⟨states, hwIfPosition, s.jointStatePosHandles⟩
  have stateVel := c.getOrderedInterfaces_eq lib ⟨states, hwIfVelocity, s.jointStateVelHandles⟩
  simp only at pos eff statePos stateVel
  unfold onActivate filled cmdPosFilled
  rw [if_neg (by rw [inactive]; exact Bool.false_ne_true)]
  simp only [pos, eff, statePos, stateVel]
  cases c.commandCurrentConfiguration with
  | false => simp
  | true => simp

end Filling

variable {c}

/-- What an activation of an inactive controller comes to: every vector is filled
and fits, or it fails at the first that does not. -/
theorem onActivate_cases (commands states : List I) {s : EffortControllerBase K I c.numJoints}
    (inactive : s.active = false) :
    (c.Misfit lib commands states s ∧
        ∃ s', c.onActivate lib commands states s = (.error, s') ∧ s'.active = false) ∨
      (¬ c.Misfit lib commands states s ∧
        ∃ s', c.onActivate lib commands states s = (.success, s') ∧ s'.active = true ∧
          c.slots commands states s' =
            (c.slots commands states s).map (Slot.fill lib c.names)) := by
  rw [onActivate_eq lib commands states inactive]
  split
  · rename_i misfit
    exact .inl ⟨⟨_, by simp [slots, misfit.1], misfit.2⟩, _, rfl, inactive⟩
  rename_i fitsCmd
  split
  · rename_i misfit
    exact .inl ⟨⟨_, by simp [slots], misfit⟩, _, rfl, inactive⟩
  rename_i fitsEff
  split
  · rename_i misfit
    exact .inl ⟨⟨_, by simp [slots], misfit⟩, _, rfl, inactive⟩
  rename_i fitsPos
  split
  · rename_i misfit
    exact .inl ⟨⟨_, by simp [slots], misfit⟩, _, rfl, inactive⟩
  · rename_i fitsVel
    rw [not_not] at fitsEff fitsPos fitsVel
    refine .inr ⟨?_, _, rfl, rfl, ?_⟩
    · cases config : c.commandCurrentConfiguration <;>
        simp_all [Misfit, slots]
    · cases config : c.commandCurrentConfiguration <;>
        simp [slots, filled, cmdPosFilled, Slot.fill, config]

variable {lib}

theorem misfit_iff {commands states : List I} {s : EffortControllerBase K I c.numJoints}
    (present : c.AllPresent lib commands states s) :
    ¬ c.Misfit lib commands states s ↔ c.Clean lib commands states s := by
  unfold Misfit Clean
  push Not
  exact forall₂_congr fun v member => Slot.fits_iff (present v member)

/-- **One activation, exactly.**  With all interfaces there, an inactive controller
is activated with one handle per joint in every vector if and only if the vectors
were empty and nothing is loaned twice. -/
theorem activates_iff {commands states : List I} {s : EffortControllerBase K I c.numJoints}
    (inactive : s.active = false) (present : c.AllPresent lib commands states s) :
    ((c.onActivate lib commands states s).1 = .success ∧
        c.AllOrdered lib commands states (c.onActivate lib commands states s).2) ↔
      c.Clean lib commands states s := by
  rw [← misfit_iff present]
  rcases onActivate_cases lib commands states inactive with
    ⟨misfit, s', eq, -⟩ | ⟨fits, s', eq, -, filled⟩
  · simp [eq, misfit]
  · have clean := (misfit_iff present).1 fits
    simp only [eq, fits, not_false_eq_true, iff_true, true_and]
    intro v member
    rw [filled] at member
    obtain ⟨w, here, rfl⟩ := List.mem_map.1 member
    obtain ⟨empty, once⟩ := clean w here
    exact Slot.ordered_fill (present w here) empty once

end Configured

/-! ## Runs -/

/-- The transitions, with what the framework has loaned at an activation. -/
inductive Event (I : Type) where
  | activate (commands states : List I)
  | deactivate

namespace Configured

variable {K I : Type} [MachineArith K] (c : Configured K) (lib : OrderedInterfaces I)

def step (s : EffortControllerBase K I c.numJoints) : Event I →
    EffortControllerBase K I c.numJoints
  | .activate commands states => (c.onActivate lib commands states s).2
  | .deactivate => c.onDeactivate s

/-- Whenever all interfaces are there, an activation succeeds and every vector the
controller uses has one handle per joint. -/
def Activates (s : EffortControllerBase K I c.numJoints) : Event I → Prop
  | .activate commands states =>
      c.AllPresent lib commands states s →
        (c.onActivate lib commands states s).1 = .success ∧
          c.AllOrdered lib commands states (c.onActivate lib commands states s).2
  | .deactivate => True

/-- An activation that finds the controller inactive finds clean vectors when all
interfaces are there, and a misfit when one is missing. -/
def StartsClean (s : EffortControllerBase K I c.numJoints) : Event I → Prop
  | .activate commands states =>
      s.active = false →
        (c.AllPresent lib commands states s → c.Clean lib commands states s) ∧
          (¬ c.AllPresent lib commands states s → c.Misfit lib commands states s)
  | .deactivate => True

variable {c lib}

/-- The order of the handles does not depend on what is loaned now. -/
theorem AllOrdered.congr {commands states : List I} {s : EffortControllerBase K I c.numJoints}
    (ordered : c.AllOrdered lib commands states s) (commands' states' : List I) :
    c.AllOrdered lib commands' states' s := by
  unfold AllOrdered slots Slot.Ordered at ordered ⊢
  cases config : c.commandCurrentConfiguration <;> simpa [config] using ordered

variable (c lib) in
/-- What holds between the transitions of a run that starts clean. -/
def OrderedWhileActive (s : EffortControllerBase K I c.numJoints) : Prop :=
  s.active = true → ∀ commands states, c.AllOrdered lib commands states s

theorem orderedWhileActive_step {s : EffortControllerBase K I c.numJoints} {e : Event I}
    (clean : c.StartsClean lib s e) (ordered : c.OrderedWhileActive lib s) :
    c.OrderedWhileActive lib (c.step lib s e) ∧ c.Activates lib s e := by
  cases e with
  | deactivate =>
      refine ⟨fun active => ?_, trivial⟩
      simp only [step, onDeactivate] at active
      split at active
      · cases active
      · rename_i inactive
        exact absurd active inactive
  | activate commands states =>
      cases state : s.active with
      | true =>
          have same : c.onActivate lib commands states s = (.success, s) := by
            rw [onActivate, if_pos state]
          refine ⟨?_, fun _ => ?_⟩
          · rw [step, same]
            exact ordered
          · rw [same]
            exact ⟨rfl, ordered state commands states⟩
      | false =>
          obtain ⟨whenPresent, whenMissing⟩ := clean state
          by_cases present : c.AllPresent lib commands states s
          · have activates := (activates_iff state present).2 (whenPresent present)
            exact ⟨fun _ commands' states' => activates.2.congr commands' states',
              fun _ => activates⟩
          · have misfit := whenMissing present
            refine ⟨fun active => ?_, fun there => absurd there present⟩
            rcases onActivate_cases lib commands states state with ⟨-, s', eq, failed⟩ | ⟨fits, -⟩
            · rw [step, eq, failed] at active
              cases active
            · exact absurd misfit fits

/-- **Re-activation, where it starts clean.**  In every run whose activations find
clean vectors (or a misfit, when an interface is missing), every activation with all
interfaces there succeeds and leaves one handle per joint in every vector. -/
theorem along_activates {es : List (Event I)}
    (clean : Along (c.step lib) (c.StartsClean lib) c.constructed es) :
    Along (c.step lib) (c.Activates lib) c.constructed es :=
  clean.of_invariant (c.step lib) (I := c.OrderedWhileActive lib)
    (fun _ _ clean ordered => (orderedWhileActive_step clean ordered).1)
    (fun _ _ clean ordered => (orderedWhileActive_step clean ordered).2) (fun active => by cases active)

end Configured

/-! ## A concrete arm -/

/-- Interfaces that are nothing but their full names. -/
def fullNames : OrderedInterfaces String where
  getName := id
  getOrderedInterfaces unordered names type ordered :=
    let out := ordered ++ names.flatMap fun name =>
      unordered.filter fun i => decide (i = name ++ "/" ++ type)
    (decide (out.length = names.length), out)
  appends _ _ _ _ := rfl
  complete _ _ _ _ := rfl

/-- Seven joints with a torque rate of one newton metre per cycle. -/
def fr3Effort (commandCurrentConfiguration : Bool) : Configured ℚ where
  numJoints := 7
  jointNames i := ["fr3_joint1", "fr3_joint2", "fr3_joint3", "fr3_joint4", "fr3_joint5",
    "fr3_joint6", "fr3_joint7"].get i
  cmdInterfaceTypes := [hwIfEffort]
  commandCurrentConfiguration := commandCurrentConfiguration
  jointEffortLimits _ := Double.lit 87
  deltaTauMax := Double.lit 1
  some_joint := by decide
  some_effort := by decide
  delta_accepted := by decide +kernel

/-- All interfaces of these joints, of one type after the other. -/
def fr3Loaned (types : List String) : List String :=
  types.flatMap fun type => (fr3Effort true).names.map fun name => name ++ "/" ++ type

def fr3Activate : Event String :=
  .activate (fr3Loaned [hwIfEffort, hwIfPosition]) (fr3Loaned [hwIfPosition, hwIfVelocity])

namespace Configured

/-- With `command_current_configuration`, the second activation finds the position
handles of the first. -/
theorem not_along_activates_position :
    ¬ Along ((fr3Effort true).step fullNames) ((fr3Effort true).Activates fullNames)
      (fr3Effort true).constructed [fr3Activate, .deactivate, fr3Activate] := by
  rintro ⟨-, -, activates, -⟩
  exact absurd (activates (by decide +kernel)).1 (by decide +kernel)

/-- Without it, activations and deactivations alternate. -/
theorem along_activates_effort :
    Along ((fr3Effort false).step fullNames) ((fr3Effort false).Activates fullNames)
      (fr3Effort false).constructed [fr3Activate, .deactivate, fr3Activate] := by
  refine along_activates ⟨fun _ => ⟨fun _ => ?_, fun missing => ?_⟩, trivial,
    fun _ => ⟨fun _ => ?_, fun missing => ?_⟩, trivial⟩
  · decide +kernel
  · exact absurd (by decide +kernel) missing
  · decide +kernel
  · exact absurd (by decide +kernel) missing

end Configured

end FrankaRos.EffortController
