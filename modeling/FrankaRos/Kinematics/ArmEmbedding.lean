/-
# Kinematics.ArmEmbedding -- when the arm comes back out of the full configuration

`fillQFullFromArmInPlace` writes the arm through one index table and the extra joints
through another, over what the arm has written; `extractArmFromQFullInPlace` reads the
first table again.  The two tables come from names: seven that are composed of the arm's
id, and the keys of a map that the user gives.

`Ready.evaluated` is what comes back, for every map: the position the map gives an arm
joint, and the requested one where it gives none.  So the arm comes back at a
configuration exactly if the map contradicts none of its values (`Ready.roundTrip_iff`),
and at every configuration exactly if it names no arm joint (`agrees_all_iff`).
-/
import FrankaRos.Kinematics.InverseKinematics
import FrankaRos.Kinematics.SafeIndices

namespace FrankaRos.Kinematics

open FrankaRos.Theory

set_option autoImplicit false

namespace PinocchioKinematics

section

variable {K : Type}

/-- `q_full[idx]`, read. -/
def load (q : List K) (idx : Int) : Option K :=
  if 0 ≤ idx then q[idx.toNat]? else none

def extractArmFromQFullInPlace (qFull : List K) (qArm : Fin 7 → K) (s : PinocchioKinematics K) :
    Option (Fin 7 → K) :=
  (List.finRange 7).foldlM
    (fun qArm i => (load qFull (s.armQIdx i)).map fun value => Function.update qArm i value) qArm

/-- The joints of `l` get what is read for them, and the others keep what they had. -/
theorem extract_loop {qFull : List K} {s : PinocchioKinematics K} {l : List (Fin 7)}
    {qArm q : Fin 7 → K} :
    l.foldlM (fun qArm i => (load qFull (s.armQIdx i)).map fun value =>
        Function.update qArm i value) qArm = some q ↔
      (∀ i ∈ l, load qFull (s.armQIdx i) = some (q i)) ∧ ∀ i ∉ l, q i = qArm i := by
  induction l generalizing qArm with
  | nil => simp [funext_iff, eq_comm]
  | cons i l ih =>
      rw [List.foldlM_cons]
      constructor
      · intro ran
        obtain ⟨next, read, rest⟩ := Option.bind_eq_some_iff.1 ran
        obtain ⟨value, here, rfl⟩ := Option.map_eq_some_iff.1 read
        obtain ⟨inside, outside⟩ := ih.1 rest
        refine ⟨List.forall_mem_cons.2 ⟨?_, inside⟩, fun j absent => ?_⟩
        · by_cases later : i ∈ l
          · exact inside i later
          · rw [outside i later, Function.update_self, here]
        · obtain ⟨other, absent⟩ := not_or.1 (List.mem_cons.not.1 absent)
          rw [outside j absent, Function.update_of_ne other]
      · rintro ⟨inside, outside⟩
        obtain ⟨here, inside⟩ := List.forall_mem_cons.1 inside
        rw [here]
        refine ih.2 ⟨inside, fun j absent => ?_⟩
        by_cases same : j = i
        · rw [same]
          exact (Function.update_self i (q i) qArm).symm
        · refine Eq.trans ?_ (Function.update_of_ne same (q i) qArm).symm
          exact outside j fun member => (List.mem_cons.1 member).elim same absent

theorem extract_eq_some_iff {qFull : List K} {s : PinocchioKinematics K} {qArm q : Fin 7 → K} :
    s.extractArmFromQFullInPlace qFull qArm = some q ↔
      ∀ i, load qFull (s.armQIdx i) = some (q i) := by
  rw [extractArmFromQFullInPlace, extract_loop]
  simp

/-! ## What a map gives the arm -/

/-- A map whose positions for the arm joints are the requested ones. -/
def Agrees (map : List (String × K)) (armId : String) (q : Fin 7 → K) : Prop :=
  ∀ i p, givenPosition map (armJointName armId i) = some p → p = q i

/-- A map that names no arm joint agrees with every configuration, and no other one does. -/
theorem agrees_all_iff [Nontrivial K] {map : List (String × K)} {armId : String} :
    (∀ q, Agrees map armId q) ↔ ∀ i, armJointName armId i ∉ map.map Prod.fst := by
  constructor
  · intro agrees i
    rw [← givenPosition_eq_none_iff]
    cases given : givenPosition map (armJointName armId i) with
    | none => rfl
    | some p =>
        obtain ⟨p', differ⟩ := exists_ne p
        exact absurd (agrees (fun _ => p') i p given).symm differ
  · intro free q i p given
    rw [givenPosition_eq_none_iff.2 (free i)] at given
    cases given

/-! ## The round trip -/

section RoundTrip

variable [Zero K] [One K] {m : Model} {opt : Options} {block : Fin 7 → Nat}
  {s : PinocchioKinematics K}

/-- Building the full configuration and extracting the arm again, whatever the vector that
the arm is extracted into held. -/
def RoundTrip (s : PinocchioKinematics K) (q q' : Fin 7 → K) : Prop :=
  ∃ full, s.fillQFullFromArmInPlace q = some full ∧
    ∀ qArm, s.extractArmFromQFullInPlace full qArm = some q'

theorem Ready.evaluated_load (ready : Ready m opt block s) {q : Fin 7 → K} {full : List K}
    (built : s.fillQFullFromArmInPlace q = some full) (i : Fin 7) :
    load full (s.armQIdx i) =
      some ((givenPosition s.qExtraMap (armJointName opt.armId i)).getD (q i)) := by
  have nonneg : 0 ≤ s.armQIdx i := by rw [ready.armQIdx i]; omega
  rw [load, if_pos nonneg, ready.armQIdx i, Int.toNat_natCast, ready.evaluated_entry built i]

/-- What comes back, for every map. -/
theorem Ready.evaluated (ready : Ready m opt block s) (q : Fin 7 → K) :
    s.RoundTrip q fun i =>
      (givenPosition s.qExtraMap (armJointName opt.armId i)).getD (q i) := by
  obtain ⟨full, built, -⟩ := ready.fillQFull q
  exact ⟨full, built, fun qArm => extract_eq_some_iff.2 (ready.evaluated_load built)⟩

theorem Ready.roundTrip_iff (ready : Ready m opt block s) (q : Fin 7 → K) :
    s.RoundTrip q q ↔ Agrees s.qExtraMap opt.armId q := by
  constructor
  · rintro ⟨full, built, extracted⟩ i p given
    have entry := ready.evaluated_load built i
    rw [extract_eq_some_iff.1 (extracted q) i, given] at entry
    exact (Option.some.inj entry).symm
  · intro agrees
    obtain ⟨full, built, -⟩ := ready.fillQFull q
    refine ⟨full, built, fun qArm => extract_eq_some_iff.2 fun i => ?_⟩
    rw [ready.evaluated_load built i]
    cases given : givenPosition s.qExtraMap (armJointName opt.armId i) with
    | none => rfl
    | some p => exact congrArg some (agrees i p given)

end RoundTrip

/-! ## The map in force -/

theorem initFromUrdfXml_qExtraMap [Zero K] [One K] {buildModelFromXML : String → Option Model}
    {urdf : String} {opt : Options} {s s' : PinocchioKinematics K}
    (ran : s.initFromUrdfXml buildModelFromXML urdf opt = some (true, s')) :
    s'.qExtraMap = s.qExtraMap := by
  obtain ⟨m, entries, -, -, -, frame⟩ := initFromUrdfXml_true ran
  rw [frame]

theorem setExtraJointPositions_qExtraMap {qExtra : List (String × K)}
    {s s' : PinocchioKinematics K} (ran : s.setExtraJointPositions qExtra = some s') :
    s'.qExtraMap = qExtra := by
  simp only [setExtraJointPositions] at ran
  split at ran
  · obtain ⟨entries, -, rfl⟩ := Option.map_eq_some_iff.1 ran
    rfl
  · obtain rfl := Option.some.inj ran
    rfl

/-- The last of the maps, and the one from before where none is given. -/
theorem qExtraMap_run {maps : List (List (String × K))} {s s' : PinocchioKinematics K}
    (ran : maps.foldlM (fun s qExtra => s.setExtraJointPositions qExtra) s = some s') :
    s'.qExtraMap = maps.getLastD s.qExtraMap := by
  induction maps generalizing s with
  | nil =>
      obtain rfl := Option.some.inj ran
      rfl
  | cons qExtra maps ih =>
      rw [List.foldlM_cons] at ran
      obtain ⟨t, first, rest⟩ := Option.bind_eq_some_iff.1 ran
      rw [ih rest, setExtraJointPositions_qExtraMap first, List.getLastD_cons]

end

/-! ## What Pinocchio is asked -/

section Evaluated

variable {K : Type} [MachineArith K] (lib : Pinocchio (Double K) (SE3 K) (Vec K 6))
  (lower upper : List (Double K))

/-- For `q`, `fk`, `jacobian` and the iterations of `ik` and `ik_position_only` evaluate the
model at the configuration `full`.  The first two return if the frame is one of the model's. -/
structure Evaluates (s : PinocchioKinematics (Double K)) (q : Vector7d K)
    (full : List (Double K)) : Prop where
  fk : s.eeFrameId < s.model.frames.length →
    s.fk lib q = some (.ok (lib.placement s.model full s.eeFrameId))
  jacobian : s.eeFrameId < s.model.frames.length →
    s.jacobian lib q = some (.ok (List.ofFn fun i =>
      (lib.frameJacobian s.model full s.eeFrameId).getD (s.armVIdx i).toNat fun _ => 0))
  ikPlacement : (s.ikModel lib lower upper).placement q = lib.placement s.model full s.eeFrameId
  ikJacobian : ∀ i row, (s.ikModel lib lower upper).jacobian q row i =
    (lib.frameJacobian s.model full s.eeFrameId).getD (s.armVIdx i).toNat (fun _ => 0) row

/-- The model is evaluated at a configuration whose arm is `q`. -/
def EvaluatesArm (s : PinocchioKinematics (Double K)) (q : Vector7d K) : Prop :=
  ∃ full, s.fillQFullFromArmInPlace q = some full ∧
    (∀ qArm, s.extractArmFromQFullInPlace full qArm = some q) ∧
      s.Evaluates lib lower upper q full

/-- What is promised of an initialisation and the maps given after it. -/
def EmbedsArm [One (Double K)] (buildModelFromXML : String → Option Model) (urdf : String)
    (opt : Options) (s : PinocchioKinematics (Double K)) (maps : List (List (String × Double K)))
    (q : Vector7d K) : Prop :=
  ∃ s' s'', s.initFromUrdfXml buildModelFromXML urdf opt = some (true, s') ∧
    maps.foldlM (fun s qExtra => s.setExtraJointPositions qExtra) s' = some s'' ∧
      s''.EvaluatesArm lib lower upper q

variable [One (Double K)] {m : Model} {opt : Options} {block : Fin 7 → Nat}
  {s : PinocchioKinematics (Double K)}

theorem Ready.evaluates (ready : Ready m opt block s) {q : Vector7d K} {full : List (Double K)}
    (built : s.fillQFullFromArmInPlace q = some full) : s.Evaluates lib lower upper q full := by
  have placement : (s.ikModel lib lower upper).placement q =
      lib.placement s.model full s.eeFrameId := by
    simp only [PinocchioKinematics.ikModel, built, Option.getD_some]
  have columns : ∀ i row, (s.ikModel lib lower upper).jacobian q row i =
      (lib.frameJacobian s.model full s.eeFrameId).getD (s.armVIdx i).toNat (fun _ => 0) row := by
    simp only [PinocchioKinematics.ikModel, built, Option.getD_some, implies_true]
  refine ⟨fun inside => ?_, fun inside => ?_, placement, columns⟩
  · rw [(ready.ikModel inside lib lower upper q).1, placement]
  · obtain ⟨-, _, returned, rfl⟩ := ready.ikModel inside lib lower upper q
    simp only [returned, columns]

theorem Ready.evaluatesArm_iff (ready : Ready m opt block s) (q : Vector7d K) :
    s.EvaluatesArm lib lower upper q ↔ Agrees s.qExtraMap opt.armId q := by
  rw [← ready.roundTrip_iff]
  constructor
  · rintro ⟨full, built, extracted, -⟩
    exact ⟨full, built, extracted⟩
  · rintro ⟨full, built, extracted⟩
    exact ⟨full, built, extracted, ready.evaluates lib lower upper built⟩

/-- An initialised object evaluates the model at the requested arm exactly if the map in
force agrees with it. -/
theorem embedsArm_iff {buildModelFromXML : String → Option Model} {urdf : String}
    (parsed : buildModelFromXML urdf = some m) (fits : m.Fits)
    (arm : ∀ i, m.HasJoint (armJointName opt.armId i)) {maps : List (List (String × Double K))}
    {q : Vector7d K} :
    EmbedsArm lib lower upper buildModelFromXML urdf opt s maps q ↔
      (∀ map ∈ s.qExtraMap :: maps, ∀ entry ∈ map, m.HasJoint entry.1) ∧
        Agrees (maps.getLastD s.qExtraMap) opt.armId q := by
  rw [List.forall_mem_cons]
  constructor
  · rintro ⟨s', s'', initialised, given, evaluates⟩
    obtain ⟨block, ready⟩ := initFromUrdfXml_ready parsed initialised
    have names := (ready.maps_iff fits).1 ⟨s'', given⟩
    have inForce := qExtraMap_run given
    rw [initFromUrdfXml_qExtraMap initialised] at inForce
    rcases initFromUrdfXml_cases s opt parsed fits with ⟨⟨-, before⟩, -⟩ | ⟨-, outside⟩
    · refine ⟨⟨before, names⟩, ?_⟩
      rw [← inForce]
      exact ((setExtraJointPositions_run ready given).evaluatesArm_iff lib lower upper q).1
        evaluates
    · rw [outside] at initialised
      cases initialised
  · rintro ⟨⟨before, names⟩, agrees⟩
    rcases initFromUrdfXml_cases s opt parsed fits with ⟨-, s', initialised⟩ | ⟨missing, -⟩
    · obtain ⟨block, ready⟩ := initFromUrdfXml_ready parsed initialised
      obtain ⟨s'', given⟩ := (ready.maps_iff fits).2 names
      have inForce := qExtraMap_run given
      rw [initFromUrdfXml_qExtraMap initialised] at inForce
      refine ⟨s', s'', initialised, given, ?_⟩
      rw [(setExtraJointPositions_run ready given).evaluatesArm_iff lib lower upper q, inForce]
      exact agrees
    · exact absurd ⟨arm, before⟩ missing

/-- **The arm round trip, exactly.**  The arm comes back at a configuration if the map in
force does not contradict it, and at every configuration if that map names no arm joint;
every name that is looked up has to exist. -/
theorem arm_roundTrip_iff {buildModelFromXML : String → Option Model} {urdf : String}
    (parsed : buildModelFromXML urdf = some m) (fits : m.Fits) (opt : Options)
    (arm : ∀ i, m.HasJoint (armJointName opt.armId i)) (s : PinocchioKinematics (Double K))
    (maps : List (List (String × Double K))) :
    (∀ q, EmbedsArm lib lower upper buildModelFromXML urdf opt s maps q ↔
        (∀ map ∈ s.qExtraMap :: maps, ∀ entry ∈ map, m.HasJoint entry.1) ∧
          Agrees (maps.getLastD s.qExtraMap) opt.armId q) ∧
      ((∀ q, EmbedsArm lib lower upper buildModelFromXML urdf opt s maps q) ↔
        (∀ map ∈ s.qExtraMap :: maps, ∀ entry ∈ map, m.HasJoint entry.1) ∧
          ∀ i, armJointName opt.armId i ∉ (maps.getLastD s.qExtraMap).map Prod.fst) := by
  have each : ∀ q, EmbedsArm lib lower upper buildModelFromXML urdf opt s maps q ↔ _ := fun q =>
    embedsArm_iff lib lower upper parsed fits arm
  have two : Nontrivial (Double K) := ⟨.nan, .posInf, nofun⟩
  refine ⟨each, ?_⟩
  rw [← agrees_all_iff]
  constructor
  · intro all
    exact ⟨((each 0).1 (all 0)).1, fun q => ((each q).1 (all q)).2⟩
  · rintro ⟨names, agrees⟩ q
    exact (each q).2 ⟨names, agrees q⟩

end Evaluated

end PinocchioKinematics

/-! ## An arm whose fourth joint is held -/

section Held

/-- The unit of exact doubles. -/
instance : One (Double ℚ) := ⟨.fin 1⟩

/-- The position of one joint. -/
def slide (m : Model) (q : List (Double ℚ)) : Nat → Double ℚ
  | 0 => 0
  | k + 1 => (m.joints[k]?.bind fun _ => q[m.qLayout.sizeUpTo k]?).getD 0

/-- Joints that all slide along the first axis. -/
def slidingArm : Pinocchio (Double ℚ) (SE3 ℚ) (Vec ℚ 6) where
  placement m q frame := poseAt (((m.frameSupports frame).map (slide m q)).foldl (· + ·) 0)
  frameJacobian m _ frame := (List.range m.nv).map fun v : Nat => fun row : Fin 6 =>
    if (∃ jid ∈ m.frameSupports frame, m.idxV jid = some (v : Int)) ∧ row.val = 0 then 1 else 0
  placement_local m frame q q' same := by
    congr 2
    apply List.map_congr_left
    intro jid member
    cases jid with
    | zero => rfl
    | succ k =>
        cases there : m.joints[k]? with
        | none => simp only [slide, there, Option.bind_none]
        | some joint =>
            have entry := same k member joint there 0 joint.type.nq_pos
            simp only [slide, there, Option.bind_some]
            exact congrArg (·.getD 0) entry
  frameJacobian_local _ _ _ _ _ := rfl
  length_frameJacobian _ _ _ := by simp

/-- With a finger given a position before the initialisation and the other one after it, the
arm comes back. -/
theorem arm_roundTrip_fingers :
    PinocchioKinematics.EmbedsArm slidingArm [] []
      (fun _ => some (armModel .prismatic fingers)) "<robot/>" {}
      { PinocchioKinematics.constructed with qExtraMap := [("fr3_finger_joint1", 0)] }
      [[("fr3_finger_joint2", 1)]] fun _ => 1 :=
  (PinocchioKinematics.arm_roundTrip_iff slidingArm [] [] (m := armModel .prismatic fingers) rfl
    ⟨by decide, by decide⟩ {} (by decide) _ _).2.2 ⟨by decide, by decide⟩ _

/-- An arm joint among the extra joints is evaluated where the map holds it, whatever arm
is requested. -/
theorem not_arm_roundTrip_held :
    ∃ s s', (PinocchioKinematics.constructed (K := Double ℚ)).initFromUrdfXml
        (fun _ => some (armModel .revolute fingers)) "<robot/>" {} = some (true, s) ∧
      s.setExtraJointPositions [("fr3_joint4", 0)] = some s' ∧
      (∀ q, s'.RoundTrip q fun i => if i.val = 3 then 0 else q i) ∧
      ¬ s'.RoundTrip (fun _ => 1) (fun _ => 1) := by
  have ran : ((PinocchioKinematics.constructed (K := Double ℚ)).initFromUrdfXml
      (fun _ => some (armModel .revolute fingers)) "<robot/>" {}).map Prod.fst = some true := by
    decide
  obtain ⟨⟨_, s⟩, initialised, rfl⟩ := Option.map_eq_some_iff.1 ran
  obtain ⟨block, ready⟩ := PinocchioKinematics.initFromUrdfXml_ready rfl initialised
  have known : ∀ map ∈ [[("fr3_joint4", (0 : Double ℚ))]], ∀ entry ∈ map,
      (armModel .revolute fingers).HasJoint entry.1 := by decide
  obtain ⟨s', given⟩ := (ready.maps_iff ⟨by decide, by decide⟩).2 known
  have ready' := PinocchioKinematics.setExtraJointPositions_run ready given
  have held : s'.qExtraMap = [("fr3_joint4", 0)] := PinocchioKinematics.qExtraMap_run given
  have position : ∀ i, PinocchioKinematics.givenPosition [("fr3_joint4", (0 : Double ℚ))]
      (armJointName "fr3" i) = if i.val = 3 then some 0 else none := by decide
  refine ⟨s, s', initialised, ?_, fun q => ?_, ?_⟩
  · simpa using given
  · have back := ready'.evaluated q
    simp only [held, position] at back
    convert back using 2 with i
    split <;> rfl
  · rw [ready'.roundTrip_iff, held]
    intro agrees
    exact absurd (agrees ⟨3, by omega⟩ 0 (by decide)) (by decide)

end Held

end FrankaRos.Kinematics
