/-
# EffortController.TorqueContinuity -- how far a command moves in one cycle

Every command is limited twice, in its rate and in its value.  The rate is
measured from `m_efforts`, the last command the controller remembers, and not
from what the interface holds; the two are the same within an activation, but the
hardware zeroes its interfaces when effort control starts and the controller does
not forget.

`within_iff` is the arithmetic of one joint's command, and `along_continuous_iff`
what it comes to over whole runs: every command lies within the limit and within
one rate of what its interface held, if and only if the torques and the rate are
numbers, and a command the controller remembers from an earlier activation brings
the first one of the next no further than one rate from zero.
-/
import FrankaRos.EffortController.Reactivation
import FrankaRos.Theory.Writes
import Mathlib.Data.List.FinRange
import Mathlib.Data.List.Nodup

namespace FrankaRos.EffortController

open FrankaRos.Theory

set_option autoImplicit false

namespace Configured

variable {K I : Type} [SignedArith K] (c : Configured K)

/-! ## One command -/

/-- The command of one joint, limited in its rate and in its value. -/
def command (i : Fin c.numJoints) (effort torque : Double K) : Double K :=
  Double.clamp (effort + c.saturated (torque - effort)) (-c.jointEffortLimits i)
    (c.jointEffortLimits i)

/-- A command within the joint's limit and within one rate of what its interface held. -/
def Within (i : Fin c.numJoints) (held command : Double K) : Prop :=
  (-c.jointEffortLimits i ≤ command ∧ command ≤ c.jointEffortLimits i) ∧
    held - c.deltaTauMax ≤ command ∧ command ≤ held + c.deltaTauMax

/-- From an effort remembered, the next command towards a torque is within one rate
of zero: from above, unless it is told to come down and can; from below likewise. -/
def NearZero (effort torque : Double K) : Prop :=
  ((effort + (torque - effort) ≤ c.deltaTauMax ∨ effort + c.deltaTauMax ≤ c.deltaTauMax) ∧
      effort - c.deltaTauMax ≤ c.deltaTauMax) ∧
    ((-c.deltaTauMax ≤ effort + (torque - effort) ∨ -c.deltaTauMax ≤ effort - c.deltaTauMax) ∧
      -c.deltaTauMax ≤ effort + c.deltaTauMax)

variable {c}

theorem delta_nonneg (number : c.deltaTauMax.isNaN = false) : .fin 0 ≤ c.deltaTauMax :=
  Double.le_trans (Double.lit_nonneg (by norm_num))
    ((Double.not_lt_iff rfl number).1 c.delta_accepted)

/-- A NaN goes through the rate limit. -/
theorem saturated_nan : c.saturated (.nan : Double K) = .nan := by
  simp [saturated, Double.min, Double.max]

theorem command_nan (i : Fin c.numJoints) (effort : Double K) : c.command i effort .nan = .nan := by
  have difference : (.nan : Double K) - effort = .nan := rfl
  have sum : effort + (.nan : Double K) = .nan := by cases effort <;> rfl
  rw [command, difference, saturated_nan, sum, Double.clamp_nan]

section Number

variable {x : K} {torque : Double K} (delta : c.deltaTauMax.isNaN = false)
  (number : torque.isNaN = false)

include number in
theorem difference_number : (torque - .fin x).isNaN = false := by
  show (torque + -.fin x).isNaN = false
  rw [Double.add_comm]
  exact Double.fin_add_number (-x) number

include delta number

theorem saturated_number : (c.saturated (torque - .fin x)).isNaN = false := by
  have difference := difference_number (x := x) number
  unfold saturated Double.min Double.max
  repeat' split
  all_goals first | assumption | simpa using delta

/-- A bound on the rate-limited effort, from above. -/
theorem add_saturated_le_iff {b : Double K} :
    .fin x + c.saturated (torque - .fin x) ≤ b ↔
      (.fin x + (torque - .fin x) ≤ b ∧ .fin x - c.deltaTauMax ≤ b) ∨
        .fin x + c.deltaTauMax ≤ b := by
  have difference := difference_number (x := x) number
  have negative : (-c.deltaTauMax).isNaN = false := by rw [Double.neg_isNaN, delta]
  have inner : (Double.max (torque - .fin x) (-c.deltaTauMax)).isNaN = false := by
    unfold Double.max
    split <;> assumption
  rw [saturated, Double.fin_add_min_le_iff inner delta,
    Double.fin_add_max_le_iff difference negative]
  exact Iff.rfl

/-- A bound on it from below. -/
theorem le_add_saturated_iff {b : Double K} :
    b ≤ .fin x + c.saturated (torque - .fin x) ↔
      (b ≤ .fin x + (torque - .fin x) ∨ b ≤ .fin x - c.deltaTauMax) ∧
        b ≤ .fin x + c.deltaTauMax := by
  have difference := difference_number (x := x) number
  have negative : (-c.deltaTauMax).isNaN = false := by rw [Double.neg_isNaN, delta]
  have inner : (Double.max (torque - .fin x) (-c.deltaTauMax)).isNaN = false := by
    unfold Double.max
    split <;> assumption
  rw [saturated, Double.le_fin_add_min_iff inner delta,
    Double.le_fin_add_max_iff difference negative]
  exact Iff.rfl

variable {i : Fin c.numJoints} {l : K} (limit : c.jointEffortLimits i = .fin l) (nonneg : 0 ≤ l)

include limit nonneg

theorem command_range :
    -c.jointEffortLimits i ≤ c.command i (.fin x) torque ∧
      c.command i (.fin x) torque ≤ c.jointEffortLimits i := by
  have sum := Double.fin_add_number x (saturated_number (x := x) delta number)
  rw [command, limit]
  exact Double.clamp_mem sum (Double.neg_le_self (Double.fin_le_fin.2 nonneg))

theorem command_le_iff {b : Double K} (above : -c.jointEffortLimits i ≤ b) :
    c.command i (.fin x) torque ≤ b ↔
      ((.fin x + (torque - .fin x) ≤ b ∧ .fin x - c.deltaTauMax ≤ b) ∨
        .fin x + c.deltaTauMax ≤ b) ∨ c.jointEffortLimits i ≤ b := by
  have sum := Double.fin_add_number x (saturated_number (x := x) delta number)
  have ordered : -c.jointEffortLimits i ≤ c.jointEffortLimits i := by
    rw [limit]
    exact Double.neg_le_self (Double.fin_le_fin.2 nonneg)
  rw [command, Double.clamp_le_iff sum ordered above, add_saturated_le_iff delta number]

theorem le_command_iff {b : Double K} (below : b ≤ c.jointEffortLimits i) :
    b ≤ c.command i (.fin x) torque ↔
      ((b ≤ .fin x + (torque - .fin x) ∨ b ≤ .fin x - c.deltaTauMax) ∧
        b ≤ .fin x + c.deltaTauMax) ∨ b ≤ -c.jointEffortLimits i := by
  have sum := Double.fin_add_number x (saturated_number (x := x) delta number)
  have ordered : -c.jointEffortLimits i ≤ c.jointEffortLimits i := by
    rw [limit]
    exact Double.neg_le_self (Double.fin_le_fin.2 nonneg)
  rw [command, Double.le_clamp_iff sum ordered below, le_add_saturated_iff delta number]

/-- Within an activation, where the interface holds what the controller remembers,
every command is within one rate. -/
theorem rate_remembered (below : -c.jointEffortLimits i ≤ .fin x)
    (above : .fin x ≤ c.jointEffortLimits i) :
    .fin x - c.deltaTauMax ≤ c.command i (.fin x) torque ∧
      c.command i (.fin x) torque ≤ .fin x + c.deltaTauMax := by
  have rate := delta_nonneg delta
  have up : .fin x ≤ .fin x + c.deltaTauMax := Double.fin_le_fin_add x rate
  have down : .fin x - c.deltaTauMax ≤ .fin x := Double.fin_sub_le x rate
  constructor
  · rw [le_command_iff delta number limit nonneg (Double.le_trans down above)]
    exact .inl ⟨.inr (Double.le_refl (Double.le_number down).1), Double.le_trans down up⟩
  · rw [command_le_iff delta number limit nonneg (Double.le_trans below up)]
    exact .inl (.inr (Double.le_refl (Double.le_number up).2))

/-- From an interface that holds zero, a command is within one rate if the limit is,
or the rate limit stays there. -/
theorem rate_zeroed :
    (.fin 0 - c.deltaTauMax ≤ c.command i (.fin x) torque ∧
        c.command i (.fin x) torque ≤ .fin 0 + c.deltaTauMax) ↔
      c.jointEffortLimits i ≤ c.deltaTauMax ∨ c.NearZero (.fin x) torque := by
  have rate := delta_nonneg delta
  have zero : (.fin 0 : Double K) ≤ c.jointEffortLimits i := limit ▸ Double.fin_le_fin.2 nonneg
  have up : .fin x - c.deltaTauMax ≤ .fin x + c.deltaTauMax :=
    Double.le_trans (Double.fin_sub_le x rate) (Double.fin_le_fin_add x rate)
  rw [Double.fin_zero_sub, Double.fin_zero_add]
  rw [le_command_iff delta number limit nonneg (Double.le_trans (Double.neg_nonpos rate) zero),
    command_le_iff delta number limit nonneg (Double.le_trans (Double.neg_nonpos zero) rate),
    Double.neg_le_neg_iff]
  have lower : .fin x + c.deltaTauMax ≤ c.deltaTauMax → .fin x - c.deltaTauMax ≤ c.deltaTauMax :=
    Double.le_trans up
  unfold NearZero
  tauto

end Number

/-- **One command, exactly.**  From an effort within the limit, with an interface that
holds that effort or zero, a command is within the limit and one rate if and only if
the rate and the torque are numbers and, unless the interface holds the effort, the
limit is at most the rate or the rate limit keeps the command near zero. -/
theorem within_iff {i : Fin c.numJoints} {l x : K} {torque held : Double K}
    (limit : c.jointEffortLimits i = .fin l) (nonneg : 0 ≤ l)
    (below : -c.jointEffortLimits i ≤ .fin x) (above : .fin x ≤ c.jointEffortLimits i)
    (holds : held = .fin x ∨ held = .fin 0) :
    c.Within i held (c.command i (.fin x) torque) ↔
      c.deltaTauMax.isNaN = false ∧ torque.isNaN = false ∧
        (held = .fin x ∨ c.jointEffortLimits i ≤ c.deltaTauMax ∨ c.NearZero (.fin x) torque) := by
  constructor
  · rintro ⟨range, rate⟩
    have number : torque.isNaN = false := by
      cases nan : torque.isNaN with
      | false => rfl
      | true =>
          rw [Double.isNaN_iff.1 nan, command_nan] at range
          cases (Double.le_number range.2).1
    have delta : c.deltaTauMax.isNaN = false := by
      cases nan : c.deltaTauMax.isNaN with
      | false => rfl
      | true =>
          rw [Double.isNaN_iff.1 nan] at rate
          have sum : held + .nan = .nan := by cases held <;> rfl
          rw [sum] at rate
          cases (Double.le_number rate.2).2
    refine ⟨delta, number, ?_⟩
    rcases holds with same | rfl
    · exact .inl same
    · exact .inr ((rate_zeroed delta number limit nonneg).1 rate)
  · rintro ⟨delta, number, near⟩
    refine ⟨command_range delta number limit nonneg, ?_⟩
    rcases holds with rfl | rfl
    · exact rate_remembered delta number limit nonneg below above
    · rcases near with same | near
      · rw [same]
        exact rate_remembered delta number limit nonneg below above
      · exact (rate_zeroed delta number limit nonneg).2 near

/-! ## Calls -/

variable (c) (lib : OrderedInterfaces I)

/-- What the framework loans an activation: the command interfaces the controller
asks for, each of them once, and some state interfaces. -/
structure Loan where
  commands : List I
  states : List I
  asked : commands.map lib.getName = c.commandInterfaceNames
  distinct : (commands.map lib.getName).Nodup

/-- The calls the lifecycle makes, with the positions read, the torque computed, and
what a deactivation reads past the end of its six zeros. -/
inductive Call where
  | activate (loan : c.Loan lib) (positions : Fin c.numJoints → Double K)
  | update (positions tau : Fin c.numJoints → Double K)
  | deactivate (pastEnd : Fin c.numJoints → Double K)

/-- The torque a call is limited towards, if it writes at all. -/
def Call.torque {c : Configured K} {lib : OrderedInterfaces I} :
    Call c lib → Option (Fin c.numJoints → Double K)
  | .activate _ _ => none
  | .update _ tau => some tau
  | .deactivate pastEnd => some (c.zeroTorque pastEnd)

/-- A call in a lifecycle state that has it; no state is left by undefined behaviour. -/
def call : Option (DerivedController K I c.numJoints) → Call c lib →
    Option (DerivedController K I c.numJoints)
  | none, _ => none
  | some s, .activate loan positions =>
      if s.active then some s else c.activate lib loan.commands loan.states positions s
  | some s, .update positions tau => if s.active then c.update lib positions tau s else some s
  | some s, .deactivate pastEnd => if s.active then c.deactivate lib pastEnd s else some s

/-- The controller at the end of `on_configure`. -/
def start (held : Held K) : DerivedController K I c.numJoints := ⟨c.constructed, held, false⟩

/-- Every value a call writes lies within its joint's limit and within one rate of
what the joint's interface held. -/
def Continuous (state : Option (DerivedController K I c.numJoints)) (e : Call c lib) : Prop :=
  ∀ s tau, state = some s → s.active = true → e.torque = some tau →
    ∃ s', c.call lib state e = some s' ∧
      ∀ i, c.Within i (s.held (c.effortName i)) (s'.held (c.effortName i))

/-- What a call that writes has to find: numbers, and no effort remembered that its
interface does not hold, unless that makes no difference. -/
def Steady (state : Option (DerivedController K I c.numJoints)) (e : Call c lib) : Prop :=
  ∀ s tau, state = some s → s.active = true → e.torque = some tau → ∀ i,
    c.deltaTauMax.isNaN = false ∧ (tau i).isNaN = false ∧
      (s.held (c.effortName i) = s.base.efforts i ∨
        c.jointEffortLimits i ≤ c.deltaTauMax ∨ c.NearZero (s.base.efforts i) (tau i))

/-! ## Handles -/

/-- What the handle vectors satisfy in every run: where the state positions are all
there, so are the effort commands, joint by joint. -/
structure Handles (s : EffortControllerBase K I c.numJoints) : Prop where
  joints : c.numJoints ≤ s.jointStatePosHandles.length → Function.Injective c.jointNames
  effort : c.numJoints ≤ s.jointStatePosHandles.length →
    (s.jointCmdEffHandles.take c.numJoints).map lib.getName =
      c.names.map fun name => name ++ "/" ++ hwIfEffort
  position : c.commandCurrentConfiguration = true →
    c.numJoints ≤ s.jointStatePosHandles.length → c.numJoints ≤ s.jointCmdPosHandles.length
  named : ∀ h ∈ s.jointCmdPosHandles, ∃ name, lib.getName h = name ++ "/" ++ hwIfPosition

variable {c lib}

theorem length_names : c.names.length = c.numJoints := List.length_ofFn

/-- A loan has the effort interface of every joint, and has it once. -/
theorem Loan.effort (loan : c.Loan lib) (handles : List I) :
    (Slot.mk loan.commands hwIfEffort handles).Present lib c.names ∧
      (Slot.mk loan.commands hwIfEffort handles).Once lib c.names := by
  constructor
  · intro name member
    have asked : name ++ "/" ++ hwIfEffort ∈ c.commandInterfaceNames :=
      List.mem_flatMap.2 ⟨hwIfEffort, c.some_effort, List.mem_map.2 ⟨name, member, rfl⟩⟩
    rw [← loan.asked] at asked
    obtain ⟨i, loaned, named⟩ := List.mem_map.1 asked
    exact List.ne_nil_of_mem (List.mem_filter.2 ⟨loaned, by simpa using named⟩)
  · intro name _
    have distinct : (((Slot.mk loan.commands hwIfEffort handles).matching lib name).map
        lib.getName).Nodup := loan.distinct.sublist (List.filter_sublist.map _)
    have same : ((Slot.mk loan.commands hwIfEffort handles).matching lib name).map lib.getName =
        List.replicate ((Slot.mk loan.commands hwIfEffort handles).matching lib name).length
          (name ++ "/" ++ hwIfEffort) := by
      refine List.eq_replicate_iff.2 ⟨List.length_map _, fun full member => ?_⟩
      obtain ⟨i, found, rfl⟩ := List.mem_map.1 member
      simpa using (List.mem_filter.1 found).2
    rw [same] at distinct
    exact List.nodup_replicate.1 distinct

/-- A controller that has been loaned its command interfaces has distinct joints. -/
theorem Loan.joints (loan : c.Loan lib) : Function.Injective c.jointNames := by
  have distinct := loan.distinct
  rw [loan.asked] at distinct
  have effort : (c.names.map fun name => name ++ "/" ++ hwIfEffort).Nodup :=
    (List.nodup_flatMap.1 distinct).1 hwIfEffort c.some_effort
  exact List.nodup_ofFn.1 (List.Nodup.of_map _ effort)

theorem Handles.congr {s t : EffortControllerBase K I c.numJoints} (handles : c.Handles lib s)
    (cmdPos : t.jointCmdPosHandles = s.jointCmdPosHandles)
    (cmdEff : t.jointCmdEffHandles = s.jointCmdEffHandles)
    (statePos : t.jointStatePosHandles = s.jointStatePosHandles) : c.Handles lib t := by
  obtain ⟨joints, effort, position, named⟩ := handles
  rw [← statePos] at joints effort position
  rw [← cmdEff] at effort
  rw [← cmdPos] at position named
  exact ⟨joints, effort, position, named⟩

theorem named_fill {v : Slot I} {names : List String}
    (named : ∀ h ∈ v.handles, ∃ name, lib.getName h = name ++ "/" ++ v.type) :
    ∀ h ∈ (v.fill lib names).handles, ∃ name, lib.getName h = name ++ "/" ++ v.type := by
  intro h member
  rcases List.mem_append.1 member with old | new
  · exact named h old
  · obtain ⟨name, -, found⟩ := List.mem_flatMap.1 new
    exact ⟨name, by simpa using (List.mem_filter.1 found).2⟩

section CmdPos

variable (lib) (commands : List I) {s : EffortControllerBase K I c.numJoints}

theorem named_cmdPosFilled
    (named : ∀ h ∈ s.jointCmdPosHandles, ∃ name, lib.getName h = name ++ "/" ++ hwIfPosition) :
    ∀ h ∈ c.cmdPosFilled lib commands s, ∃ name, lib.getName h = name ++ "/" ++ hwIfPosition := by
  unfold cmdPosFilled
  split
  · exact named_fill (v := ⟨commands, hwIfPosition, s.jointCmdPosHandles⟩) named
  · exact named

/-- The position commands only ever grow. -/
theorem length_le_cmdPosFilled :
    s.jointCmdPosHandles.length ≤ (c.cmdPosFilled lib commands s).length := by
  unfold cmdPosFilled
  split
  · exact (List.prefix_append _ _).length_le
  · exact le_refl _

theorem length_cmdPosFilled (config : c.commandCurrentConfiguration = true)
    (fits : Slot.Fits lib c.names ⟨commands, hwIfPosition, s.jointCmdPosHandles⟩) :
    (c.cmdPosFilled lib commands s).length = c.numJoints := by
  rw [cmdPosFilled, if_pos config]
  exact fits.trans length_names

end CmdPos

/-- An activation, as far as it gets, keeps the handles in order. -/
theorem Handles.onActivate {s : EffortControllerBase K I c.numJoints} (handles : c.Handles lib s)
    (loan : c.Loan lib) : c.Handles lib (c.onActivate lib loan.commands loan.states s).2 := by
  by_cases active : s.active = true
  · rw [Configured.onActivate, if_pos active]
    exact handles
  rw [onActivate_eq lib loan.commands loan.states (Bool.not_eq_true _ ▸ active)]
  obtain ⟨joints, effort, position, named⟩ := handles
  have named' := named_cmdPosFilled lib loan.commands named
  have position' : c.commandCurrentConfiguration = true →
      c.numJoints ≤ s.jointStatePosHandles.length →
      c.numJoints ≤ (c.cmdPosFilled lib loan.commands s).length :=
    fun config there => (position config there).trans (length_le_cmdPosFilled lib loan.commands)
  split
  · exact ⟨joints, effort, position', named'⟩
  rename_i fitsPos
  split
  · -- nothing is overwritten, so vectors that were full stay as they were
    refine ⟨joints, fun there => ?_, position', named'⟩
    have full := congrArg List.length (effort there)
    rw [List.length_map, List.length_take, List.length_map, length_names] at full
    have enough : c.numJoints ≤ s.jointCmdEffHandles.length := by omega
    show ((s.jointCmdEffHandles ++ _).take c.numJoints).map lib.getName = _
    rw [List.take_append_of_le_length enough]
    exact effort there
  · rename_i fitsEff
    obtain ⟨present, -⟩ := loan.effort s.jointCmdEffHandles
    obtain ⟨empty, once⟩ := (Slot.fits_iff present).1 (not_not.1 fitsEff)
    have ordered := Slot.ordered_fill present empty once
    have length := congrArg List.length ordered
    rw [List.length_map, List.length_map, length_names] at length
    have effort' : ((Slot.fill lib c.names
        ⟨loan.commands, hwIfEffort, s.jointCmdEffHandles⟩).handles.take c.numJoints).map
        lib.getName = c.names.map fun name => name ++ "/" ++ hwIfEffort := by
      rw [List.take_of_length_le length.le]
      exact ordered
    have placed : c.commandCurrentConfiguration = true →
        c.numJoints ≤ (c.cmdPosFilled lib loan.commands s).length := by
      intro config
      have fits := Classical.not_not.1 fun misfit => fitsPos ⟨config, misfit⟩
      exact (length_cmdPosFilled lib loan.commands config fits).ge
    repeat' split
    all_goals
      exact ⟨fun _ => loan.joints, fun _ => effort', fun config _ => placed config, named'⟩

theorem Handles.onDeactivate {s : EffortControllerBase K I c.numJoints}
    (handles : c.Handles lib s) : c.Handles lib (c.onDeactivate s) := by
  unfold Configured.onDeactivate
  split
  · have none : ¬ c.numJoints ≤ ([] : List I).length := by simpa using c.some_joint.ne'
    exact ⟨fun there => absurd there none, fun there => absurd there none,
      fun _ there => absurd there none, handles.named⟩
  · exact handles

theorem onDeactivate_efforts (s : EffortControllerBase K I c.numJoints) :
    (c.onDeactivate s).efforts = s.efforts := by
  unfold Configured.onDeactivate
  split <;> rfl

theorem onActivate_efforts (commands states : List I)
    (s : EffortControllerBase K I c.numJoints) :
    (c.onActivate lib commands states s).2.efforts = s.efforts := by
  cases active : s.active with
  | true => rw [Configured.onActivate, if_pos active]
  | false =>
      rw [onActivate_eq lib commands states active]
      repeat' split
      all_goals rfl

/-! ## Writing -/

variable (c) in
/-- The efforts as they are written. -/
def limited (efforts : Fin c.numJoints → Double K) : Fin c.numJoints → Double K := fun i =>
  Double.clamp (efforts i) (-c.jointEffortLimits i) (c.jointEffortLimits i)

variable (lib) in
/-- A handle vector that is long enough is written joint by joint. -/
theorem setValues_eq {handles : List I} (enough : c.numJoints ≤ handles.length)
    (values : Fin c.numJoints → Double K) (held : Held K) :
    c.setValues lib handles values held =
      some (writeAll (fun i : Fin c.numJoints =>
        lib.getName (handles.get ⟨i, i.isLt.trans_le enough⟩)) values
        (List.finRange c.numJoints) held) := by
  have each : ∀ (held : Held K) (i : Fin c.numJoints),
      (handles[i.val]?.map fun handle =>
        Function.update held (lib.getName handle) (values i)) =
      some (Function.update held (lib.getName (handles.get ⟨i, i.isLt.trans_le enough⟩))
        (values i)) := by
    intro held i
    rw [List.getElem?_eq_getElem (i.isLt.trans_le enough)]
    rfl
  unfold setValues
  simp only [each]
  exact List.foldlM_pure

/-- What a write leaves: the limited efforts, in the controller and in every joint's
interface. -/
structure Written (s : EffortControllerBase K I c.numJoints)
    (out : EffortControllerBase K I c.numJoints × Held K) : Prop where
  base : out.1 = { s with efforts := c.limited s.efforts }
  held : ∀ i, out.2 (c.effortName i) = c.limited s.efforts i

/-- Handles in which every joint finds its own interface. -/
structure Addressed (c : Configured K) (lib : OrderedInterfaces I)
    (s : EffortControllerBase K I c.numJoints) : Prop where
  joints : Function.Injective c.jointNames
  effort : (s.jointCmdEffHandles.take c.numJoints).map lib.getName =
    c.names.map fun name => name ++ "/" ++ hwIfEffort

theorem Addressed.enough {s : EffortControllerBase K I c.numJoints}
    (addressed : c.Addressed lib s) : c.numJoints ≤ s.jointCmdEffHandles.length := by
  have full := congrArg List.length addressed.effort
  rw [List.length_map, List.length_take, List.length_map, length_names] at full
  omega

theorem Addressed.getName {s : EffortControllerBase K I c.numJoints}
    (addressed : c.Addressed lib s) (i : Fin c.numJoints) :
    lib.getName (s.jointCmdEffHandles.get ⟨i, i.isLt.trans_le addressed.enough⟩) =
      c.effortName i := by
  have entry := congrArg (fun names => names[i.val]?) addressed.effort
  simp only [names, List.getElem?_map, List.getElem?_take, i.isLt, if_true, List.getElem?_ofFn,
    List.getElem?_eq_getElem (i.isLt.trans_le addressed.enough)] at entry
  simpa [effortName] using entry

theorem effortName_injective (joints : Function.Injective c.jointNames) :
    Function.Injective c.effortName := by
  intro i j same
  unfold effortName at same
  rw [String.append_assoc, String.append_assoc] at same
  exact joints (String.append_left_inj _ |>.1 same)

theorem Addressed.writeType {s : EffortControllerBase K I c.numJoints}
    (addressed : c.Addressed lib s) (held : Held K) :
    ∃ out, c.writeType lib hwIfEffort (s, held) = some out ∧ Written s out := by
  have sets := setValues_eq lib addressed.enough (c.limited s.efforts) held
  simp only [addressed.getName] at sets
  refine ⟨({ s with efforts := c.limited s.efforts },
    writeAll c.effortName (c.limited s.efforts) (List.finRange c.numJoints) held), ?_, rfl, ?_⟩
  · rw [Configured.writeType, if_pos rfl]
    exact congrArg (Option.map _) sets
  · intro i
    apply writeAll_at (List.mem_finRange i)
    intro j _ same
    exact effortName_injective addressed.joints same

/-- Limits that bound a value. -/
def SoundLimits (c : Configured K) : Prop :=
  ∀ i, ∃ l : K, c.jointEffortLimits i = .fin l ∧ 0 ≤ l

/-- Limits between which `std::clamp` is defined: none is negative, but one may be NaN. -/
def OrderedLimits (c : Configured K) : Prop :=
  ∀ i, ¬ c.jointEffortLimits i < -c.jointEffortLimits i

theorem SoundLimits.ordered (limits : c.SoundLimits) : c.OrderedLimits := by
  intro i
  obtain ⟨l, limit, nonneg⟩ := limits i
  rw [limit]
  exact Double.not_lt_of_le (Double.neg_le_self (Double.fin_le_fin.2 nonneg))

theorem OrderedLimits.limited_limited (limits : c.OrderedLimits)
    (efforts : Fin c.numJoints → Double K) : c.limited (c.limited efforts) = c.limited efforts :=
  funext fun i => Double.clamp_clamp (limits i)

theorem Written.again (limits : c.OrderedLimits) {s : EffortControllerBase K I c.numJoints}
    {out out' : EffortControllerBase K I c.numJoints × Held K} (first : Written s out)
    (second : Written out.1 out') : Written s out' := by
  obtain ⟨base, -⟩ := first
  obtain ⟨base', held'⟩ := second
  rw [base] at base' held'
  simp only [limits.limited_limited] at base' held'
  exact ⟨base', held'⟩

/-- Once the efforts have been written, the further command interface types change
nothing. -/
theorem Addressed.writeTypes_written (limits : c.OrderedLimits)
    {s : EffortControllerBase K I c.numJoints} (addressed : c.Addressed lib s)
    (types : List String) {out : EffortControllerBase K I c.numJoints × Held K}
    (written : Written s out) :
    ∃ out', types.foldlM (fun out type => c.writeType lib type out) out = some out' ∧
      Written s out' := by
  induction types generalizing out with
  | nil => exact ⟨out, rfl, written⟩
  | cons type types ih =>
      by_cases here : type = hwIfEffort
      · subst here
        have same : c.Addressed lib out.1 := by
          rw [written.base]
          exact ⟨addressed.joints, addressed.effort⟩
        obtain ⟨out', eq, second⟩ := same.writeType out.2
        obtain ⟨out'', rest, last⟩ := ih (written.again limits second)
        exact ⟨out'', by rw [List.foldlM_cons, eq]; exact rest, last⟩
      · obtain ⟨out', rest, last⟩ := ih written
        refine ⟨out', ?_, last⟩
        rw [List.foldlM_cons, Configured.writeType, if_neg here]
        exact rest

theorem Addressed.writeTypes (limits : c.OrderedLimits)
    {s : EffortControllerBase K I c.numJoints} (addressed : c.Addressed lib s)
    {types : List String} (some_effort : hwIfEffort ∈ types) (held : Held K) :
    ∃ out, types.foldlM (fun out type => c.writeType lib type out) (s, held) = some out ∧
      Written s out := by
  induction types with
  | nil => cases some_effort
  | cons type types ih =>
      by_cases here : type = hwIfEffort
      · subst here
        obtain ⟨out, eq, written⟩ := addressed.writeType held
        obtain ⟨out', rest, last⟩ := addressed.writeTypes_written limits types written
        exact ⟨out', by rw [List.foldlM_cons, eq]; exact rest, last⟩
      · obtain ⟨out, rest, last⟩ := ih ((List.mem_cons.1 some_effort).resolve_left (Ne.symm here))
        refine ⟨out, ?_, last⟩
        rw [List.foldlM_cons, Configured.writeType, if_neg here]
        exact rest

theorem position_ne_effort (name name' : String) :
    name ++ "/" ++ hwIfPosition ≠ name' ++ "/" ++ hwIfEffort := by
  intro same
  have last := congrArg (fun s => s.toList.getLast?) same
  simp [hwIfPosition, hwIfEffort] at last

/-- A write reaches every joint's own interface. -/
theorem Handles.write (limits : c.OrderedLimits) {s : EffortControllerBase K I c.numJoints}
    (handles : c.Handles lib s) (there : c.numJoints ≤ s.jointStatePosHandles.length)
    (held : Held K) :
    ∃ out, c.writeJointEffortCmds lib s held = some out ∧ Written s out := by
  have addressed : c.Addressed lib s := ⟨handles.joints there, handles.effort there⟩
  obtain ⟨out, eq, written⟩ := addressed.writeTypes limits c.some_effort held
  unfold writeJointEffortCmds
  rw [eq]
  cases config : c.commandCurrentConfiguration with
  | false => exact ⟨out, rfl, written⟩
  | true =>
      have enough : c.numJoints ≤ out.1.jointCmdPosHandles.length := by
        rw [written.base]
        exact handles.position config there
      have sets := setValues_eq lib enough out.1.jointPositions out.2
      simp only [Option.bind_eq_bind, Option.bind_some, if_true, sets]
      refine ⟨(out.1, _), rfl, written.base, fun i => ?_⟩
      rw [← written.held i]
      apply writeAll_other
      intro j _ same
      have named : ∀ h ∈ out.1.jointCmdPosHandles, ∃ name, lib.getName h =
          name ++ "/" ++ hwIfPosition := by
        rw [written.base]
        exact handles.named
      obtain ⟨name, named⟩ := named _ (List.get_mem _ ⟨j, j.isLt.trans_le enough⟩)
      exact position_ne_effort _ _ (named.symm.trans same)

/-! ## Runs -/

/-- What holds between the calls of a run, whatever it commands. -/
structure Ready (c : Configured K) (lib : OrderedInterfaces I)
    (s : DerivedController K I c.numJoints) : Prop where
  handles : c.Handles lib s.base
  there : s.active = true → c.numJoints ≤ s.base.jointStatePosHandles.length ∧
    c.numJoints ≤ s.base.jointStateVelHandles.length

/-- The controller after a call that writes, whichever it is. -/
structure Commanded (s : DerivedController K I c.numJoints) (tau : Fin c.numJoints → Double K)
    (s' : DerivedController K I c.numJoints) : Prop where
  efforts : ∀ i, s'.base.efforts i = c.command i (s.base.efforts i) (tau i)
  held : ∀ i, s'.held (c.effortName i) = s'.base.efforts i

theorem limited_compute (tau : Fin c.numJoints → Double K)
    (s : EffortControllerBase K I c.numJoints) (i : Fin c.numJoints) :
    c.limited (c.computeJointEffortCmds tau s).efforts i = c.command i (s.efforts i) (tau i) := rfl

theorem Ready.start (held : Held K) : c.Ready lib (c.start (I := I) held) := by
  have none : ¬ c.numJoints ≤ ([] : List I).length := by simpa using c.some_joint.ne'
  exact ⟨⟨fun there => absurd there none, fun there => absurd there none,
    fun _ there => absurd there none, fun h member => (by cases member)⟩,
    fun active => (by cases active)⟩

/-- A call either writes, or does not reach the interfaces. -/
theorem Call.writes_or_silent (s : DerivedController K I c.numJoints) (e : Call c lib) :
    (s.active = true ∧ ∃ tau, e.torque = some tau) ∨ (s.active = true → e.torque = none) := by
  cases torque : e.torque with
  | none => exact .inr fun _ => rfl
  | some tau =>
      cases active : s.active with
      | false => exact .inr fun active => by cases active
      | true => exact .inl ⟨rfl, tau, rfl⟩

/-- A call that writes is defined, sends every joint's command, and keeps the
handles. -/
theorem Ready.call_writes (limits : c.OrderedLimits) {s : DerivedController K I c.numJoints}
    (ready : c.Ready lib s) (active : s.active = true) {e : Call c lib}
    {tau : Fin c.numJoints → Double K} (writes : e.torque = some tau) :
    ∃ s', c.call lib (some s) e = some s' ∧ Commanded s tau s' ∧ c.Ready lib s' := by
  obtain ⟨pos, vel⟩ := ready.there active
  cases e with
  | activate => cases writes
  | update positions tau' =>
      obtain rfl := Option.some.inj writes
      have reads : c.updateJointStates positions s.base =
          some { s.base with jointPositions := positions } := if_pos ⟨pos, vel⟩
      have handles : c.Handles lib (c.computeJointEffortCmds tau'
          { s.base with jointPositions := positions }) := ready.handles.congr rfl rfl rfl
      obtain ⟨out, eq, written⟩ := handles.write limits pos s.held
      refine ⟨{ s with base := out.1, held := out.2 }, ?_, ⟨fun i => ?_, fun i => ?_⟩, ⟨?_, ?_⟩⟩
      · simp only [call, active, if_true, Configured.update, reads, Option.bind_eq_bind,
          Option.bind_some]
        rw [eq]
        rfl
      · simp only [written.base]
        exact limited_compute tau' _ i
      · simp only [written.base]
        exact written.held i
      · simp only [written.base]
        exact handles.congr rfl rfl rfl
      · simp only [written.base]
        exact fun _ => ⟨pos, vel⟩
  | deactivate pastEnd =>
      obtain rfl := Option.some.inj writes
      have handles : c.Handles lib (c.computeJointEffortCmds (c.zeroTorque pastEnd) s.base) :=
        ready.handles.congr rfl rfl rfl
      obtain ⟨out, eq, written⟩ := handles.write limits pos s.held
      refine ⟨⟨c.onDeactivate out.1, out.2, false⟩, ?_, ⟨fun i => ?_, fun i => ?_⟩, ⟨?_, ?_⟩⟩
      · simp only [call, active, if_true, Configured.deactivate]
        rw [eq]
        rfl
      · show (c.onDeactivate out.1).efforts i = _
        rw [onDeactivate_efforts, written.base]
        exact limited_compute (c.zeroTorque pastEnd) _ i
      · show _ = (c.onDeactivate out.1).efforts i
        rw [onDeactivate_efforts, written.base]
        exact written.held i
      · apply Handles.onDeactivate
        rw [written.base]
        exact handles.congr rfl rfl rfl
      · exact fun active => by cases active

/-- A call that does not write, where it is defined, keeps everything in place. -/
theorem Ready.call_silent {s s' : DerivedController K I c.numJoints} (ready : c.Ready lib s)
    {e : Call c lib} (silent : s.active = true → e.torque = none)
    (ran : c.call lib (some s) e = some s') :
    c.Ready lib s' ∧ s'.base.efforts = s.base.efforts ∧
      (s' = s ∨ s'.held = c.startEffort s.held) := by
  cases active : s.active with
  | true =>
      cases e with
      | activate loan positions =>
          simp only [call, active, if_true, Option.some.injEq] at ran
          exact ran ▸ ⟨ready, rfl, .inl rfl⟩
      | update | deactivate => cases silent active
  | false =>
      cases e with
      | update | deactivate =>
          simp only [call, active, Bool.false_eq_true, if_false, Option.some.injEq] at ran
          exact ran ▸ ⟨ready, rfl, .inl rfl⟩
      | activate loan positions =>
          simp only [call, active, Bool.false_eq_true, if_false, Configured.activate,
            updateJointStates] at ran
          split at ran
          · rename_i lengths
            obtain rfl := Option.some.inj ran
            exact ⟨⟨(ready.handles.onActivate loan).congr rfl rfl rfl, fun _ => lengths⟩,
              onActivate_efforts loan.commands loan.states s.base, .inr rfl⟩
          · cases ran

/-- What holds between the calls of a run that is steady. -/
structure Sound (c : Configured K) (lib : OrderedInterfaces I)
    (s : DerivedController K I c.numJoints) : Prop where
  handles : c.Handles lib s.base
  there : s.active = true → c.numJoints ≤ s.base.jointStatePosHandles.length ∧
    c.numJoints ≤ s.base.jointStateVelHandles.length
  efforts : ∀ i, -c.jointEffortLimits i ≤ s.base.efforts i ∧
    s.base.efforts i ≤ c.jointEffortLimits i
  held : s.active = true → ∀ i, s.held (c.effortName i) = s.base.efforts i ∨
    s.held (c.effortName i) = .fin 0

theorem Sound.effort_fin {s : DerivedController K I c.numJoints} (sound : c.Sound lib s)
    (limits : c.SoundLimits) (i : Fin c.numJoints) : ∃ x, s.base.efforts i = .fin x := by
  obtain ⟨l, limit, nonneg⟩ := limits i
  obtain ⟨above, below⟩ := sound.efforts i
  rw [limit] at above below
  exact Double.exists_fin above below

theorem Sound.ready {s : DerivedController K I c.numJoints} (sound : c.Sound lib s) :
    c.Ready lib s := ⟨sound.handles, sound.there⟩

theorem Sound.start (limits : c.SoundLimits) (held : Held K) :
    c.Sound lib (c.start (I := I) held) := by
  have ready : c.Ready lib (c.start held) := Ready.start held
  obtain ⟨handles, there⟩ := ready
  refine ⟨handles, there, fun i => ?_, fun active => (by cases active)⟩
  obtain ⟨l, limit, nonneg⟩ := limits i
  have zero : (.fin 0 : Double K) ≤ .fin l := Double.fin_le_fin.2 nonneg
  rw [limit]
  exact ⟨Double.neg_nonpos zero, zero⟩

theorem Sound.call_silent {s s' : DerivedController K I c.numJoints} (sound : c.Sound lib s)
    {e : Call c lib} (silent : s.active = true → e.torque = none)
    (ran : c.call lib (some s) e = some s') : c.Sound lib s' := by
  obtain ⟨⟨handles, there⟩, efforts, held⟩ := sound.ready.call_silent silent ran
  refine ⟨handles, there, fun i => ?_, fun active i => ?_⟩
  · rw [efforts]
    exact sound.efforts i
  · rcases held with rfl | zeroed
    · exact sound.held active i
    · rw [zeroed]
      exact .inr (if_pos ⟨i, rfl⟩)

/-- In a sound state, a call that writes is continuous exactly when it is steady. -/
theorem Sound.continuous_iff (limits : c.SoundLimits) {s : DerivedController K I c.numJoints}
    (sound : c.Sound lib s) (active : s.active = true) {e : Call c lib}
    {tau : Fin c.numJoints → Double K} (writes : e.torque = some tau) :
    (∃ s', c.call lib (some s) e = some s' ∧
        ∀ i, c.Within i (s.held (c.effortName i)) (s'.held (c.effortName i))) ↔
      ∀ i, c.deltaTauMax.isNaN = false ∧ (tau i).isNaN = false ∧
        (s.held (c.effortName i) = s.base.efforts i ∨
          c.jointEffortLimits i ≤ c.deltaTauMax ∨ c.NearZero (s.base.efforts i) (tau i)) := by
  obtain ⟨s', ran, commanded, -⟩ := sound.ready.call_writes limits.ordered active writes
  have within : ∀ i, c.Within i (s.held (c.effortName i)) (s'.held (c.effortName i)) ↔
      c.deltaTauMax.isNaN = false ∧ (tau i).isNaN = false ∧
        (s.held (c.effortName i) = s.base.efforts i ∨
          c.jointEffortLimits i ≤ c.deltaTauMax ∨ c.NearZero (s.base.efforts i) (tau i)) := by
    intro i
    obtain ⟨l, limit, nonneg⟩ := limits i
    obtain ⟨x, effort⟩ := sound.effort_fin limits i
    obtain ⟨below, above⟩ := sound.efforts i
    have holds := sound.held active i
    rw [effort] at below above holds
    rw [commanded.held, commanded.efforts, effort]
    exact within_iff limit nonneg below above holds
  constructor
  · rintro ⟨s'', ran', continuous⟩ i
    obtain rfl := Option.some.inj (ran.symm.trans ran')
    exact (within i).1 (continuous i)
  · intro steady
    exact ⟨s', ran, fun i => (within i).2 (steady i)⟩

/-- What holds of a run that may have met undefined behaviour. -/
def SoundRun (c : Configured K) (lib : OrderedInterfaces I)
    (state : Option (DerivedController K I c.numJoints)) : Prop :=
  ∀ s, state = some s → c.Sound lib s

theorem SoundRun.call (limits : c.SoundLimits)
    {state : Option (DerivedController K I c.numJoints)} (sound : c.SoundRun lib state)
    {e : Call c lib} (steady : c.Steady lib state e) : c.SoundRun lib (c.call lib state e) := by
  cases state with
  | none => exact fun _ ran => by cases ran
  | some s =>
      intro s' ran
      have here := sound s rfl
      rcases e.writes_or_silent s with ⟨active, tau, torque⟩ | silent
      · have continuous := (here.continuous_iff limits active torque).2
          (steady s tau rfl active torque)
        obtain ⟨s'', ran', commanded, handles, there⟩ :=
          here.ready.call_writes limits.ordered active torque
        obtain rfl := Option.some.inj (ran.symm.trans ran')
        obtain ⟨s'', ran'', within⟩ := continuous
        obtain rfl := Option.some.inj (ran.symm.trans ran'')
        refine ⟨handles, there, fun i => ?_, fun _ i => .inl (commanded.held i)⟩
        rw [← commanded.held i]
        exact (within i).1
      · exact here.call_silent silent ran

/-- **Torque continuity, exactly.**  In a run of activations, updates and
deactivations, with finite limits, every value written to a joint's interface lies
within the joint's limit and within one rate of what that interface held, if and
only if every call that writes is steady. -/
theorem along_continuous_iff (limits : c.SoundLimits) (held : Held K) (es : List (Call c lib)) :
    Along (c.call lib) (c.Continuous lib) (some (c.start held)) es ↔
      Along (c.call lib) (c.Steady lib) (some (c.start held)) es := by
  refine along_congr (c.call lib) (I := c.SoundRun lib) (A := fun _ => True)
    (fun _ _ _ steady sound => sound.call limits steady) (fun state e _ sound => ?_)
    (fun _ _ => trivial) ?_
  · constructor
    · rintro continuous s tau rfl active torque
      exact ((sound s rfl).continuous_iff limits active torque).1
        (continuous s tau rfl active torque)
    · rintro steady s tau rfl active torque
      exact ((sound s rfl).continuous_iff limits active torque).2 (steady s tau rfl active torque)
  · rintro s same
    obtain rfl := Option.some.inj same
    exact Sound.start limits held

/-! ## A concrete arm -/

instance (i : Fin c.numJoints) (held command : Double K) : Decidable (c.Within i held command) :=
  inferInstanceAs (Decidable ((_ ∧ _) ∧ _ ∧ _))

def fr3Loan : (fr3Effort false).Loan fullNames where
  commands := fr3Loaned [hwIfEffort]
  states := fr3Loaned [hwIfPosition, hwIfVelocity]
  asked := by decide +kernel
  distinct := by decide +kernel

/-- An activation, and updates that all compute the same torque for every joint. -/
def fr3Updates (torque : ℚ) (n : Nat) : List (Call (fr3Effort false) fullNames) :=
  .activate fr3Loan (fun _ => 0) :: List.replicate n (.update (fun _ => 0) fun _ => .fin torque)

/-- The concrete arm before its first activation. -/
def fr3Start : Option (DerivedController ℚ String (fr3Effort false).numJoints) :=
  some ((fr3Effort false).start fun _ => 0)

/-- Three updates towards three newton metres, a deactivation, and an activation. -/
def fr3Reactivation : List (Call (fr3Effort false) fullNames) :=
  fr3Updates 3 3 ++ .deactivate (fun _ => 0) :: fr3Updates 3 0

def fr3Reactivated : DerivedController ℚ String (fr3Effort false).numJoints :=
  (run ((fr3Effort false).call fullNames) fr3Start fr3Reactivation).get (by decide +kernel)

theorem run_fr3Reactivation :
    run ((fr3Effort false).call fullNames) fr3Start fr3Reactivation = some fr3Reactivated :=
  (Option.some_get _).symm

/-- The three newton metres remembered are back in the first cycle. -/
theorem not_along_continuous_reactivated :
    ¬ Along ((fr3Effort false).call fullNames) ((fr3Effort false).Continuous fullNames) fr3Start
      (fr3Reactivation ++ [.update (fun _ => 0) fun _ => .fin 3]) := by
  intro along
  have last := (along_iff_split ((fr3Effort false).call fullNames) _ _ _).1 along fr3Reactivation
    (.update (fun _ => 0) fun _ => .fin 3) [] rfl
  rw [run_fr3Reactivation] at last
  obtain ⟨s', ran, within⟩ := last fr3Reactivated _ rfl (by decide +kernel) rfl
  have next := congrArg (Option.map fun s => decide (∀ i, (fr3Effort false).Within i
    (fr3Reactivated.held ((fr3Effort false).effortName i))
    (s.held ((fr3Effort false).effortName i)))) ran
  rw [Option.map_some, decide_eq_true within] at next
  exact absurd next (by decide +kernel)

/-- From zero, a torque is approached one newton metre per cycle. -/
theorem along_continuous_first :
    Along ((fr3Effort false).call fullNames) ((fr3Effort false).Continuous fullNames) fr3Start
      (fr3Updates 3 1) := by
  have limits : (fr3Effort false).SoundLimits := fun _ => ⟨_, rfl, by decide +kernel⟩
  refine (along_continuous_iff limits (fun _ => 0) (fr3Updates 3 1)).2 ⟨?_, ?_, trivial⟩
  · intro s tau _ _ torque
    cases torque
  · intro s tau ran _ torque i
    obtain rfl := Option.some.inj torque
    have zeroed : ((fr3Effort false).call fullNames fr3Start (.activate fr3Loan fun _ => 0)).map
        (fun s => decide (∀ i, s.held ((fr3Effort false).effortName i) = s.base.efforts i)) =
        some true := by decide +kernel
    rw [show (fr3Effort false).call fullNames fr3Start _ = some s from ran, Option.map_some]
      at zeroed
    exact ⟨by decide +kernel, rfl, .inl (of_decide_eq_true (Option.some.inj zeroed) i)⟩

end Configured

end FrankaRos.EffortController
