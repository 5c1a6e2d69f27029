/-
# Impedance.NullSpaceConfiguration -- what a configured null space can rely on

`on_configure` of `CartesianImpedanceController` copies the desired configuration into
`m_q_ns`, whose size every later cycle takes for granted.  An empty configuration is
answered by a zero stiffness, but not by leaving the block: the copy loop behind it runs
for every joint and reads the empty vector.

The vectors carry their sizes here, on both sides: `configureNullSpace` is what is left of
the configuration, `nullSpaceTorque` what a cycle makes of it.  Where the sizes fit,
`nullSpaceTorque_eq` says that it is `tauNull`.
-/
import FrankaRos.EffortController.EffortControllerBase
import FrankaRos.Impedance.CartesianImpedance
import FrankaRos.Theory.Sized

namespace FrankaRos.Impedance

open FrankaRos.Theory
open FrankaRos.EffortController (CallbackReturn)

set_option autoImplicit false

/-! ## The null-space torque -/

section Torque

variable {R : Type} [Add R] [Sub R] [Neg R] [Mul R] [Zero R]

/-- The null-space term of `computeTorque`; `task` is what is taken off the identity. -/
def nullSpaceTorque (enabled : Bool) (jointNumber : Nat) (identity task : SizedMatrix R)
    (stiffness damping : R) (qNs q qDot : SizedVector R) : Option (SizedVector R) :=
  if enabled then do
    let projector ← identity.sub task
    let offset ← (q.map (-·)).add qNs
    let pull ← (offset.map (stiffness * ·)).sub (qDot.map (damping * ·))
    projector.mulVec pull
  else some ⟨jointNumber, fun _ => 0⟩

end Torque

/-- With a desired configuration of the size of the chain, the term is `tauNull`. -/
theorem nullSpaceTorque_eq {R : Type} [Field R] [LinearOrder R] [FrankaRos.RlAction.Trigonometry R]
    {n : Nat} (lib : Eigen R) (c : CartesianImpedanceController R n) (given : ChainDynamics R n) :
    nullSpaceTorque (decide (1e-6 < c.nullSpaceStiffness)) n ⟨n, n, (1 : Matrix (Fin n) (Fin n) R)⟩
        ⟨n, n, given.jac.transpose * lambda lib given * given.jac * lib.inverse given.mass⟩
        c.nullSpaceStiffness c.nullSpaceDamping ⟨n, c.qNs⟩ ⟨n, given.q⟩ ⟨n, given.qDot⟩ =
      some ⟨n, c.tauNull lib given⟩ := by
  unfold nullSpaceTorque CartesianImpedanceController.tauNull
  have projected : SizedMatrix.sub ⟨n, n, (1 : Matrix (Fin n) (Fin n) R)⟩
      ⟨n, n, given.jac.transpose * lambda lib given * given.jac * lib.inverse given.mass⟩ =
        some ⟨n, n, CartesianImpedanceController.projector lib given⟩ := SizedMatrix.sub_mk _ _
  have multiplied (v : Fin n → R) :
      SizedMatrix.mulVec ⟨n, n, CartesianImpedanceController.projector lib given⟩ ⟨n, v⟩ =
        some ⟨n, (CartesianImpedanceController.projector lib given).mulVec v⟩ :=
    (SizedMatrix.mulVec_mk _ v).trans
      (congrArg (fun w : Fin n → R => some (SizedVector.mk n w))
        (funext fun _ => SizedMatrix.dot_eq_dotProduct _ v))
  by_cases enabled : 1e-6 < c.nullSpaceStiffness
  · simp only [enabled, decide_true, if_true, projected, SizedVector.map, SizedVector.add,
      SizedVector.sub, SizedVector.zip_mk, Option.bind_eq_bind, Option.bind_some, multiplied]
    rfl
  · simp only [enabled, decide_false, Bool.false_eq_true, if_false]
    rfl

/-! ## The configuration -/

/-- The parameters `on_configure` reads. -/
structure ImpedanceParameters (K : Type) where
  ftSensorRefLink : String
  stiffness : Fin 6 → Double K
  maxImpedanceForce : Double K
  nullspaceStiffness : Double K
  nullspaceDesiredConfiguration : List (Double K)
  compensateDJdq : Bool

/-- The members `on_configure` writes. -/
structure ImpedanceMembers (K : Type) where
  cartesianStiffness : Fin 6 → Double K
  maxImpedanceForce : Double K
  nullSpaceStiffness : Double K
  nullSpaceDamping : Double K
  qNs : SizedVector (Double K)
  compensateDJdq : Bool
  identity : SizedMatrix (Double K)

/-- What the base class leaves of its own `on_configure`: its result, `m_joint_number`, and
the segments of the chain. -/
structure ConfiguredBase where
  result : CallbackReturn
  jointNumber : Nat
  segments : List String

section Configure

variable {K : Type} [MachineArith K]

/-- The copy loop; an entry past the end of the configuration is undefined. -/
def copyConfiguration (jointNumber : Nat) (config : List (Double K)) :
    Option (Fin jointNumber → Double K) :=
  (List.finRange jointNumber).foldlM
    (fun qNs i => config[i.val]?.map fun value => Function.update qNs i value) fun _ => 0

/-- The block that is entered with a positive stiffness. -/
def configureNullSpace (jointNumber : Nat) (config : List (Double K))
    (self : ImpedanceMembers K) : Option (CallbackReturn × ImpedanceMembers K) :=
  if 0 < self.nullSpaceStiffness then
    if config ≠ [] ∧ config.length ≠ jointNumber then some (.error, self)
    else
      let self := if config = [] then { self with nullSpaceStiffness := 0 } else self
      (copyConfiguration jointNumber config).map fun qNs =>
        (.success, { self with qNs := ⟨jointNumber, qNs⟩ })
  else some (.success, self)

/-- What `on_configure` reads in front of the block. -/
def readStiffness (p : ImpedanceParameters K) (self : ImpedanceMembers K) : ImpedanceMembers K :=
  { self with
    cartesianStiffness := p.stiffness, maxImpedanceForce := p.maxImpedanceForce
    nullSpaceStiffness := p.nullspaceStiffness }

/-- What it sets behind the block. -/
def finishConfiguration (sqrt : Double K → Double K) (jointNumber : Nat)
    (p : ImpedanceParameters K) (self : ImpedanceMembers K) : ImpedanceMembers K :=
  { self with
    compensateDJdq := p.compensateDJdq
    nullSpaceDamping := Double.lit 2 * sqrt self.nullSpaceStiffness
    identity := ⟨jointNumber, jointNumber, fun i j => if i = j then Double.lit 1 else 0⟩ }

/-- `on_configure`; `none` when it reads past the end of the configuration. -/
def onConfigure (sqrt : Double K → Double K) (base : ConfiguredBase) (p : ImpedanceParameters K)
    (self : ImpedanceMembers K) : Option (CallbackReturn × ImpedanceMembers K) :=
  if base.result ≠ .success then some (base.result, self)
  else if p.ftSensorRefLink ∉ base.segments then some (.error, self)
  else
    match configureNullSpace base.jointNumber p.nullspaceDesiredConfiguration
        (readStiffness p self) with
    | none => none
    | some (.error, self) => some (.error, self)
    | some (.success, self) =>
        some (.success, finishConfiguration sqrt base.jointNumber p self)

/-- The guard of `computeTorque`. -/
def ImpedanceMembers.nullSpaceEnabled (self : ImpedanceMembers K) : Bool :=
  decide (Double.lit (1 / 1000000) < self.nullSpaceStiffness)

/-- `tau_null` of a cycle. -/
def ImpedanceMembers.tauNull (self : ImpedanceMembers K) (jointNumber : Nat)
    (task : SizedMatrix (Double K)) (q qDot : SizedVector (Double K)) :
    Option (SizedVector (Double K)) :=
  nullSpaceTorque self.nullSpaceEnabled jointNumber self.identity task self.nullSpaceStiffness
    self.nullSpaceDamping self.qNs q qDot

/-! ## The copy loop -/

/-- The loop reads past the end exactly when there are fewer entries than joints. -/
theorem copyConfiguration_isSome_iff {jointNumber : Nat} {config : List (Double K)} :
    (copyConfiguration jointNumber config).isSome = true ↔ jointNumber ≤ config.length := by
  have loop (joints : List (Fin jointNumber)) (qNs : Fin jointNumber → Double K) :
      (joints.foldlM (fun qNs i => config[i.val]?.map fun value => Function.update qNs i value)
        qNs).isSome = true ↔ ∀ i ∈ joints, i.val < config.length := by
    induction joints generalizing qNs with
    | nil => simp
    | cons i joints ih =>
        rw [List.foldlM_cons, List.forall_mem_cons]
        cases read : config[i.val]? with
        | none =>
            have past : ¬ i.val < config.length := not_lt.2 (List.getElem?_eq_none_iff.1 read)
            simp [past]
        | some value =>
            have within : i.val < config.length := (List.getElem?_eq_some_iff.1 read).1
            simpa [within] using ih (Function.update qNs i value)
  rw [copyConfiguration, loop]
  refine ⟨fun within => ?_, fun enough i _ => i.isLt.trans_le enough⟩
  cases jointNumber with
  | zero => exact Nat.zero_le _
  | succ n => exact within (Fin.last n) (List.mem_finRange _)

/-! ## A null space that is safe -/

/-- `on_configure` reads the configuration within its length, and where it succeeds it
leaves a null-space term that combines vectors of the size of the chain, and no term for an
empty configuration. -/
def NullSpaceSafe (sqrt : Double K → Double K) (base : ConfiguredBase) (p : ImpedanceParameters K)
    (self : ImpedanceMembers K) : Prop :=
  ∃ result configured, onConfigure sqrt base p self = some (result, configured) ∧
    (result = .success →
      (configured.nullSpaceEnabled = true → configured.qNs.size = base.jointNumber) ∧
      (∀ task : Fin base.jointNumber → Fin base.jointNumber → Double K,
        ∀ q qDot : Fin base.jointNumber → Double K, ∃ tau,
          configured.tauNull base.jointNumber ⟨base.jointNumber, base.jointNumber, task⟩
            ⟨base.jointNumber, q⟩ ⟨base.jointNumber, qDot⟩ = some ⟨base.jointNumber, tau⟩) ∧
      (p.nullspaceDesiredConfiguration = [] → configured.nullSpaceEnabled = false))

section Cases

variable {sqrt : Double K → Double K} {base : ConfiguredBase} {p : ImpedanceParameters K}
  {self : ImpedanceMembers K}

/-- The torque of a null space that is off, or holds a posture of the right size. -/
theorem tauNull_sized {n : Nat} {configured : ImpedanceMembers K} {unit : Fin n → Fin n → Double K}
    (identity : configured.identity = ⟨n, n, unit⟩)
    (sized : configured.nullSpaceEnabled = true → configured.qNs.size = n)
    (task : Fin n → Fin n → Double K) (q qDot : Fin n → Double K) :
    ∃ tau, configured.tauNull n ⟨n, n, task⟩ ⟨n, q⟩ ⟨n, qDot⟩ = some ⟨n, tau⟩ := by
  unfold ImpedanceMembers.tauNull nullSpaceTorque
  cases enabled : configured.nullSpaceEnabled with
  | false => exact ⟨_, rfl⟩
  | true =>
      obtain ⟨qNs, held⟩ := SizedVector.eq_mk_of_size (sized enabled)
      simp only [if_true, identity, held, SizedMatrix.sub_mk, SizedVector.map, SizedVector.add,
        SizedVector.sub, SizedVector.zip_mk, Option.bind_eq_bind, Option.bind_some,
        SizedMatrix.mulVec_mk]
      exact ⟨_, rfl⟩

/-- A stiffness that does not pass the first guard does not pass the second. -/
theorem disabled_of_not_pos {configured : ImpedanceMembers K}
    (none : ¬ 0 < configured.nullSpaceStiffness) : configured.nullSpaceEnabled = false := by
  have threshold : (0 : Double K) ≤ Double.lit (1 / 1000000) :=
    Double.lit_nonneg (by norm_num)
  exact decide_eq_false fun above => none (Double.lt_of_le_of_lt threshold above)

theorem nullSpaceEnabled_zero {configured : ImpedanceMembers K}
    (zero : configured.nullSpaceStiffness = 0) : configured.nullSpaceEnabled = false :=
  disabled_of_not_pos (by rw [zero]; exact Double.lt_irrefl _)

/-- The block reads past the end exactly for an empty configuration of a chain with joints. -/
theorem configureNullSpace_eq_none_iff {n : Nat} {config : List (Double K)}
    {self : ImpedanceMembers K} :
    configureNullSpace n config self = none ↔
      0 < n ∧ 0 < self.nullSpaceStiffness ∧ config = [] := by
  unfold configureNullSpace
  by_cases stiff : 0 < self.nullSpaceStiffness
  · rw [if_pos stiff]
    by_cases other : config ≠ [] ∧ config.length ≠ n
    · rw [if_pos other]
      exact iff_of_false nofun fun both => other.1 both.2.2
    · rw [if_neg other, Option.map_eq_none_iff, ← Option.not_isSome_iff_eq_none,
        copyConfiguration_isSome_iff, not_le]
      constructor
      · intro short
        have empty : config = [] := by
          by_contra some
          exact other ⟨some, short.ne⟩
        exact ⟨Nat.zero_lt_of_lt short, stiff, empty⟩
      · rintro ⟨joints, -, rfl⟩
        exact joints
  · rw [if_neg stiff]
    exact iff_of_false nofun fun both => stiff both.2.1

/-- Where the block succeeds, it leaves a posture of the right size, or no null space. -/
theorem configureNullSpace_success {n : Nat} {config : List (Double K)}
    {self configured : ImpedanceMembers K}
    (left : configureNullSpace n config self = some (.success, configured)) :
    (configured.nullSpaceEnabled = true → configured.qNs.size = n) ∧
      (config = [] → configured.nullSpaceEnabled = false) := by
  unfold configureNullSpace at left
  by_cases stiff : 0 < self.nullSpaceStiffness
  · rw [if_pos stiff] at left
    split at left
    · cases left
    · obtain ⟨qNs, -, same⟩ := Option.map_eq_some_iff.1 left
      obtain ⟨-, rfl⟩ := Prod.mk.inj same
      refine ⟨fun _ => rfl, fun empty => nullSpaceEnabled_zero ?_⟩
      rw [if_pos empty]
  · rw [if_neg stiff] at left
    obtain ⟨-, rfl⟩ := Prod.mk.inj (Option.some.inj left)
    have off := disabled_of_not_pos stiff
    exact ⟨fun on => absurd on (by simp [off]), fun _ => off⟩

end Cases

/-- The configuration is safe exactly when the copy loop is not reached with an empty
configuration: the base class or the chain has refused before, there is no joint to read
for, the stiffness does not open the block, or the configuration is not empty. -/
theorem nullSpaceSafe_iff (sqrt : Double K → Double K) (base : ConfiguredBase)
    (p : ImpedanceParameters K) (self : ImpedanceMembers K) :
    NullSpaceSafe sqrt base p self ↔
      ¬ (base.result = .success ∧ p.ftSensorRefLink ∈ base.segments ∧ 0 < base.jointNumber ∧
        0 < p.nullspaceStiffness ∧ p.nullspaceDesiredConfiguration = []) := by
  unfold NullSpaceSafe onConfigure
  by_cases failed : base.result = .success
  case neg =>
    rw [if_pos failed]
    exact ⟨fun _ both => failed both.1, fun _ => ⟨_, _, rfl, fun success => (failed success).elim⟩⟩
  by_cases reached : p.ftSensorRefLink ∈ base.segments
  case neg =>
    rw [if_neg (not_not.2 failed), if_pos reached]
    exact ⟨fun _ both => reached both.2.1, fun _ => ⟨_, _, rfl, fun success => by cases success⟩⟩
  rw [if_neg (not_not.2 failed), if_neg (not_not.2 reached)]
  cases block : configureNullSpace base.jointNumber p.nullspaceDesiredConfiguration
      (readStiffness p self) with
  | none =>
      obtain ⟨joints, stiff, empty⟩ := configureNullSpace_eq_none_iff.1 block
      constructor
      · rintro ⟨_, _, impossible, -⟩
        cases impossible
      · exact fun safe => (safe ⟨failed, reached, joints, stiff, empty⟩).elim
  | some out =>
      have within : ¬ (base.result = .success ∧ p.ftSensorRefLink ∈ base.segments ∧
          0 < base.jointNumber ∧ 0 < p.nullspaceStiffness ∧
            p.nullspaceDesiredConfiguration = []) := by
        rintro ⟨-, -, read⟩
        rw [configureNullSpace_eq_none_iff.2 read] at block
        cases block
      refine ⟨fun _ => within, fun _ => ?_⟩
      obtain ⟨result, configured⟩ := out
      cases result with
      | error => exact ⟨_, _, rfl, fun success => by cases success⟩
      | success =>
          obtain ⟨sized, off⟩ := configureNullSpace_success block
          exact ⟨_, _, rfl, fun _ => ⟨sized, tauNull_sized rfl sized, off⟩⟩

end Configure

/-! ## An arm without a desired configuration -/

def sevenJoints : ConfiguredBase := ⟨.success, 7, ["fr3_link7", "fr3_hand"]⟩

/-- A stiff null space and the empty configuration. -/
def stiffWithout : ImpedanceParameters ℚ :=
  ⟨"fr3_hand", fun _ => .fin 100, .fin 70, .fin 10, [], true⟩

def unconfigured : ImpedanceMembers ℚ :=
  ⟨fun _ => 0, 0, 0, 0, ⟨0, fun _ => 0⟩, false, ⟨0, 0, fun _ _ => 0⟩⟩

/-- The first joint's entry is read past the end. -/
theorem not_nullSpaceSafe_empty : ¬ NullSpaceSafe id sevenJoints stiffWithout unconfigured := by
  rintro ⟨result, configured, read, -⟩
  have stiff : 0 < (readStiffness stiffWithout unconfigured).nullSpaceStiffness := by decide
  have past : configureNullSpace 7 [] (readStiffness stiffWithout unconfigured) = none :=
    configureNullSpace_eq_none_iff.2 ⟨by decide, stiff, rfl⟩
  have undefined : onConfigure id sevenJoints stiffWithout unconfigured = none := by
    rw [onConfigure, if_neg (by decide), if_neg (by decide)]
    simp only [sevenJoints, stiffWithout] at past ⊢
    rw [past]
  rw [undefined] at read
  cases read

end FrankaRos.Impedance
