/-
# Kinematics.CartesianImpedanceOscRT -- what the torque controller hands to Pinocchio

The controller has a copy of the model and takes the arm to be its first seven
entries: it writes the arm at the head of zero vectors and reads the first seven
columns of the frame Jacobian.  `computeTorqueCalls` lists its calls of Pinocchio with
their arguments; the arithmetic on the results is left out.  `none` is a head of
seven entries in a shorter vector.
-/
import FrankaRos.Kinematics.PinocchioKinematics

namespace FrankaRos.Kinematics

open FrankaRos.Theory

set_option autoImplicit false

structure CartesianImpedanceOscConfig where
  eeFrameName : String := "fr3_hand_tcp"
  deriving DecidableEq, Repr

/-- `eeFrameId` has no value before `configure`. -/
structure CartesianImpedanceOscRT where
  model : Model
  armDofs : Int
  eeFrameId : Nat
  configured : Bool
  cfg : CartesianImpedanceOscConfig
  deriving DecidableEq, Repr

/-- A call of Pinocchio with the vectors it is handed. -/
inductive PinocchioCall (K : Type) where
  | forwardKinematics (q v : List K)
  | updateFramePlacements
  | computeFrameJacobian (q : List K) (frame : Nat)
  | crba (q : List K)
  | nonLinearEffects (q v : List K)
  deriving DecidableEq, Repr

/-- Pinocchio rejects a vector of another size. -/
def PinocchioCall.Accepted {K : Type} (m : Model) : PinocchioCall K → Prop
  | forwardKinematics q v => q.length = m.nq ∧ v.length = m.nv
  | updateFramePlacements => True
  | computeFrameJacobian q _ => q.length = m.nq
  | crba q => q.length = m.nq
  | nonLinearEffects q v => q.length = m.nq ∧ v.length = m.nv

namespace CartesianImpedanceOscRT

/-- The constructor. -/
def construct (model : Model) (armDofs : Int) : CartesianImpedanceOscRT :=
  ⟨model, armDofs, 0, false, {}⟩

/-- `getFrameId` does not throw, so a frame that is missing is not noticed. -/
def configure (cfg : CartesianImpedanceOscConfig) (s : CartesianImpedanceOscRT) :
    Bool × CartesianImpedanceOscRT :=
  if s.armDofs ≠ 7 then (false, { s with configured := false })
  else
    (true, { s with
      cfg := cfg, eeFrameId := s.model.getFrameId cfg.eeFrameName, configured := true })

variable {K : Type} [Zero K]

/-- `v.head<7>() = values` on a vector of `n` zeros. -/
def setHead (n : Nat) (values : Fin 7 → K) : Option (List K) :=
  if 7 ≤ n then some (List.ofFn values ++ List.replicate (n - 7) 0) else none

def qFull (q7 : Fin 7 → K) (s : CartesianImpedanceOscRT) : Option (List K) :=
  setHead s.model.nq q7

def dqFull (dq7 : Fin 7 → K) (s : CartesianImpedanceOscRT) : Option (List K) :=
  setHead s.model.nv dq7

/-- The calls of `computeTorque`; it only prints a size other than nine. -/
def computeTorqueCalls (q7 dq7 : Fin 7 → K) (s : CartesianImpedanceOscRT) :
    Option (List (PinocchioCall K)) :=
  if s.configured = false then some []
  else do
    let qFull ← s.qFull q7
    let dqFull ← s.dqFull dq7
    let dqZero := List.replicate 9 0
    some [.forwardKinematics qFull dqFull, .updateFramePlacements,
      .computeFrameJacobian qFull s.eeFrameId, .crba qFull, .nonLinearEffects qFull dqFull,
      .nonLinearEffects qFull dqZero]

/-- The column of the frame Jacobian that `leftCols<7>` puts in place `i`. -/
def j6Column (i : Fin 7) : Int := i.val

variable {Pose Column : Type} (lib : Pinocchio K Pose Column)

/-- `data_.oMf[ee_frame_id_]`, read in `computeTorque`. -/
def oMe (q7 : Fin 7 → K) (s : CartesianImpedanceOscRT) : Option Pose := do
  let qFull ← s.qFull q7
  if s.eeFrameId < s.model.frames.length then
    some (lib.placement s.model qFull s.eeFrameId)
  else none

/-- `J6_`. -/
def j6 (q7 : Fin 7 → K) (s : CartesianImpedanceOscRT) : Option (List Column) := do
  let qFull ← s.qFull q7
  if s.eeFrameId < s.model.frames.length then
    (List.finRange 7).mapM fun i =>
      PinocchioKinematics.col (lib.frameJacobian s.model qFull s.eeFrameId) (j6Column i)
  else none

/-! ## The vectors -/

theorem setHead_eq {n : Nat} (room : 7 ≤ n) (values : Fin 7 → K) :
    ∃ v, setHead n values = some v ∧ v.length = n ∧ (∀ i : Fin 7, v[i.val]? = some (values i)) ∧
      ∀ k, 7 ≤ k → k < n → v[k]? = some 0 := by
  refine ⟨List.ofFn values ++ List.replicate (n - 7) 0, if_pos room, ?_, ?_, ?_⟩
  · simp
    omega
  · intro i
    rw [List.getElem?_append_left (by simp), List.getElem?_ofFn, dif_pos i.isLt]
  · intro k behind inside
    rw [List.getElem?_append_right (by simpa using behind), List.length_ofFn,
      List.getElem?_replicate, if_pos (by omega)]

/-- What a successful `configure` leaves. -/
theorem configure_true {model : Model} {armDofs : Int} {cfg : CartesianImpedanceOscConfig}
    {s : CartesianImpedanceOscRT} (ran : (construct model armDofs).configure cfg = (true, s)) :
    s.model = model ∧ s.configured = true ∧ s.eeFrameId = model.getFrameId cfg.eeFrameName := by
  unfold configure at ran
  split at ran
  · cases ran
  · obtain rfl := (Prod.mk.inj ran).2
    exact ⟨rfl, rfl, rfl⟩

/-- A configured controller's calls are accepted exactly in a model of nine velocities. -/
theorem calls_accepted_iff {s : CartesianImpedanceOscRT} (configured : s.configured = true)
    (roomQ : 7 ≤ s.model.nq) (roomV : 7 ≤ s.model.nv) (q7 dq7 : Fin 7 → K) :
    (∃ calls, s.computeTorqueCalls q7 dq7 = some calls ∧
        ∀ call ∈ calls, call.Accepted s.model) ↔ s.model.nv = 9 := by
  obtain ⟨q, wroteQ, lengthQ, -⟩ := setHead_eq roomQ q7
  obtain ⟨v, wroteV, lengthV, -⟩ := setHead_eq roomV dq7
  have calls : s.computeTorqueCalls q7 dq7 =
      some [.forwardKinematics q v, .updateFramePlacements, .computeFrameJacobian q s.eeFrameId,
        .crba q, .nonLinearEffects q v, .nonLinearEffects q (List.replicate 9 0)] := by
    simp [computeTorqueCalls, configured, qFull, dqFull, wroteQ, wroteV]
  rw [calls]
  constructor
  · rintro ⟨made, same, accepted⟩
    obtain rfl := Option.some.inj same
    have last := accepted (.nonLinearEffects q (List.replicate 9 0)) (by simp)
    have size : (List.replicate 9 (0 : K)).length = s.model.nv := last.2
    simpa using size.symm
  · intro nine
    refine ⟨_, rfl, ?_⟩
    simp [PinocchioCall.Accepted, lengthQ, lengthV, nine]

end CartesianImpedanceOscRT

end FrankaRos.Kinematics
