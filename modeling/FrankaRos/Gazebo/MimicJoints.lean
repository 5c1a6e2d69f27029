/-
# Gazebo.MimicJoints -- how closely a mimic joint follows

Every `write` gives a mimic joint a velocity in proportion to how far it is from the position of
the joint it mimics, times its multiplier.  Both positions are the simulator's own, so the
velocity changes in every iteration, and not once in a control period.  Of the distance an
iteration leaves a fixed share, and adds what the mimicked joint has moved on: behind a joint
that keeps moving the mimic joint lags, but not by more than a bound (`mimic_follows`).
-/
import Mathlib
import FrankaRos.Gazebo.PositionServo
import FrankaRos.Theory.Contraction

namespace FrankaRos.Gazebo

open FrankaRos.Theory

set_option autoImplicit false

section Loops

variable {K : Type} [Zero K] [Add K] [Sub K] [Mul K] [Neg K] {jointEfforts : Fin 7 → K}
  {gain updateRate : K} {gravity : (Fin 7 → K) → Except String (Fin 7 → K)}
  {s s' : IgnitionSystem K} {ecm ecm' : EntityComponentManager K}

/-- Commands leave positions alone, and a velocity component with its entry. -/
structure KeepsPositions (ecm ecm' : EntityComponentManager K) : Prop where
  position : ∀ e, (ecm' e).jointPosition = (ecm e).jointPosition
  commandable : ∀ e, (ecm e).jointVelocityCmd ≠ some [] → (ecm' e).jointVelocityCmd ≠ some []

omit [Zero K] [Add K] [Sub K] [Mul K] [Neg K] in
theorem KeepsPositions.refl : KeepsPositions ecm ecm := ⟨fun _ => rfl, fun _ some => some⟩

omit [Zero K] [Add K] [Sub K] [Mul K] [Neg K] in
theorem KeepsPositions.trans {ecm'' : EntityComponentManager K} (first : KeepsPositions ecm ecm')
    (second : KeepsPositions ecm' ecm'') : KeepsPositions ecm ecm'' :=
  ⟨fun e => (second.position e).trans (first.position e),
    fun e some => second.commandable e (first.commandable e some)⟩

omit [Zero K] [Add K] [Sub K] [Mul K] [Neg K] in
/-- An update of one entity's commands. -/
theorem KeepsPositions.update {e : Entity} {c : Components K}
    (position : c.jointPosition = (ecm e).jointPosition)
    (commandable : (ecm e).jointVelocityCmd ≠ some [] → c.jointVelocityCmd ≠ some []) :
    KeepsPositions ecm (Function.update ecm e c) := by
  constructor
  · intro e'
    by_cases same : e' = e
    · rw [same, Function.update_self, position]
    · rw [Function.update_of_ne same]
  · intro e' some
    by_cases same : e' = e
    · subst same
      rw [Function.update_self]
      exact commandable some
    · rwa [Function.update_of_ne same]

omit [Add K] [Sub K] [Mul K] [Neg K] in
theorem createOrAssign_ne_nil (value : K) (data : Option (List K)) :
    createOrAssign value data ≠ some [] := by
  cases data <;> simp [createOrAssign]

omit [Zero K] [Add K] [Sub K] [Mul K] [Neg K] in
theorem createOrStore_eq {data : Option (List K)} (some : data ≠ some []) (value : K) :
    ∃ rest, createOrStore value data = .some (value :: rest) := by
  cases data with
  | none => exact ⟨[], rfl⟩
  | some data =>
      cases data with
      | nil => exact absurd rfl some
      | cons v vs => exact ⟨vs, rfl⟩

omit [Zero K] [Add K] [Sub K] [Mul K] [Neg K] in
theorem createOrStore_ne_nil {data : Option (List K)} (some : data ≠ some []) (value : K) :
    createOrStore value data ≠ .some [] := by
  obtain ⟨rest, stored⟩ := createOrStore_eq some value
  rw [stored]
  simp

theorem commandJoint_keepsPosition {i : Nat} {joint : JointData K} {c c' : Components K}
    (ran : commandJoint jointEfforts gain updateRate i joint c = some c') :
    c'.jointPosition = c.jointPosition ∧
      (c.jointVelocityCmd ≠ some [] → c'.jointVelocityCmd ≠ some []) := by
  unfold commandJoint at ran
  split at ran
  · cases ran
    exact ⟨rfl, fun _ => createOrAssign_ne_nil _ _⟩
  split at ran
  · cases ran
    exact ⟨rfl, fun some => createOrStore_ne_nil some _⟩
  split at ran
  · split at ran
    · cases ran
      exact ⟨rfl, id⟩
    · split at ran
      · cases ran
        exact ⟨rfl, id⟩
      · cases ran
  split at ran
  · cases ran
    exact ⟨rfl, fun some => createOrStore_ne_nil some _⟩
  · cases ran
    exact ⟨rfl, id⟩

theorem commandJoints_keepsPositions {i : Nat} {joints : List (JointData K)}
    (ran : commandJoints jointEfforts gain updateRate i joints ecm = some ecm') :
    KeepsPositions ecm ecm' := by
  induction joints generalizing i ecm with
  | nil =>
      cases ran
      exact .refl
  | cons joint rest ih =>
      unfold commandJoints at ran
      split at ran
      · exact ih ran
      · obtain ⟨c, commanded, others⟩ := Option.bind_eq_some_iff.1 ran
        obtain ⟨position, commandable⟩ := commandJoint_keepsPosition commanded
        exact (KeepsPositions.update position commandable).trans (ih others)

omit [Add K] in
theorem mimicInterface_keepsPositions {joints : List (JointData K)} {mimic : MimicJoint K}
    {interface : String} (ran : mimicInterface updateRate joints mimic ecm interface = some ecm') :
    KeepsPositions ecm ecm' := by
  simp only [mimicInterface, Option.bind_eq_bind, Option.bind_eq_some_iff] at ran
  obtain ⟨joint, -, mimicked, -, ran⟩ := ran
  split at ran
  · simp only [Option.bind_eq_some_iff] at ran
    obtain ⟨_, -, _, -, _, -, _, -, same⟩ := ran
    cases same
    exact .update rfl fun some => createOrStore_ne_nil some _
  split at ran
  · simp only [Option.bind_eq_some_iff] at ran
    obtain ⟨_, -, _, -, same⟩ := ran
    cases same
    exact .update rfl fun _ => createOrAssign_ne_nil _ _
  split at ran
  · cases ran
    exact .update rfl id
  · cases ran
    exact .refl

omit [Add K] in
theorem mimicJoints_keepsPositions {joints : List (JointData K)} {mimics : List (MimicJoint K)}
    (ran : mimics.foldlM (fun ecm mimic => mimic.interfacesToMimic.foldlM
      (mimicInterface updateRate joints mimic) ecm) ecm = some ecm') : KeepsPositions ecm ecm' := by
  refine foldlM_invariant (I := KeepsPositions ecm) ?_ .refl ran
  intro t t' mimic _ before looped
  refine foldlM_invariant (I := KeepsPositions ecm) ?_ before looped
  exact fun t t' interface _ before stepped => before.trans (mimicInterface_keepsPositions stepped)

/-- A mimic joint that follows positions, its entity and that of the joint it mimics. -/
structure Mimics (s : IgnitionSystem K) (mimic : MimicJoint K) (e leader : Entity) : Prop where
  alone : ∃ pre post, s.mimicJoints = pre ++ mimic :: post ∧
    ∀ other ∈ post, s.entities[other.jointIndex]? ≠ some e
  interfaces : mimic.interfacesToMimic = ["position"]
  here : s.entities[mimic.jointIndex]? = some e
  leads : s.entities[mimic.mimickedJointIndex]? = some leader

omit [Zero K] [Add K] [Sub K] [Mul K] [Neg K] in
theorem joint_of_entity {index : Nat} {e : Entity} (listed : s.entities[index]? = some e) :
    ∃ joint, s.joints[index]? = some joint ∧ joint.simJoint = e := by
  rw [IgnitionSystem.entities, List.getElem?_map] at listed
  exact Option.map_eq_some_iff.1 listed

/-- What a `write` that succeeds tells a mimic joint. -/
theorem write_mimic {mimic : MimicJoint K} {e leader : Entity} {p l : K} {ps ls : List K}
    (mimics : Mimics s mimic e leader) (wrote : write gravity updateRate s = some (.ok, s'))
    (there : (s.ecm e).jointPosition = some (p :: ps))
    (ahead : (s.ecm leader).jointPosition = some (l :: ls))
    (commandable : (s.ecm e).jointVelocityCmd ≠ some []) :
    (∃ vs, (s'.ecm e).jointVelocityCmd =
        some (-(p - l * mimic.multiplier) * updateRate :: vs)) ∧
      KeepsPositions s.ecm s'.ecm := by
  obtain ⟨q, jointEfforts, ecm, -, -, commanded, mimicked⟩ := write_ok wrote
  have kept := (commandJoints_keepsPositions commanded).trans (mimicJoints_keepsPositions mimicked)
  obtain ⟨pre, post, parts, others⟩ := mimics.alone
  rw [parts, List.foldlM_append] at mimicked
  obtain ⟨ecm₁, before, rest⟩ := Option.bind_eq_some_iff.1 mimicked
  rw [List.foldlM_cons, mimics.interfaces] at rest
  obtain ⟨ecm₂, own, after⟩ := Option.bind_eq_some_iff.1 rest
  replace own : mimicInterface updateRate s.joints mimic ecm₁ "position" = some ecm₂ := by
    simpa using own
  have kept₁ := (commandJoints_keepsPositions commanded).trans (mimicJoints_keepsPositions before)
  refine ⟨?_, kept⟩
  -- the mimic joints behind leave the velocity alone
  have last : s'.ecm e = ecm₂ e := by
    refine foldlM_invariant (I := fun t => t e = ecm₂ e) ?_ rfl after
    intro t t' other member before looped
    refine foldlM_invariant (I := fun t => t e = ecm₂ e) ?_ before looped
    intro t t' interface _ before stepped
    rw [← before]
    refine mimicInterface_frame stepped fun joint found same => others other member ?_
    rw [IgnitionSystem.entities, List.getElem?_map, found, Option.map_some, same]
  obtain ⟨joint, here, rfl⟩ := joint_of_entity mimics.here
  obtain ⟨leading, leads, rfl⟩ := joint_of_entity mimics.leads
  simp only [mimicInterface, here, leads, Option.bind_eq_bind, Option.bind_some,
    kept₁.position, there, ahead, List.getElem?_cons_zero, if_true] at own
  rw [last, ← Option.some.inj own, Function.update_self]
  exact createOrStore_eq (kept₁.commandable _ commandable) _

/-- What happens between two iterations: neither a `write` nor the simulator. -/
def Event.Between : Event K → Prop
  | .write => False
  | .simulate _ => False
  | _ => True

theorem between_run {es : List (Event K)} (between : ∀ e ∈ es, e.Between)
    (ran : runs gravity updateRate s es = some s') :
    s'.ecm = s.ecm ∧ s'.entities = s.entities ∧ s'.mimicJoints = s.mimicJoints := by
  refine foldlM_invariant (I := fun t => t.ecm = s.ecm ∧ t.entities = s.entities ∧
    t.mimicJoints = s.mimicJoints) ?_ ⟨rfl, rfl, rfl⟩ ran
  rintro t t' e member ⟨components, entities, mimics⟩ stepped
  refine ⟨?_, (entities_step stepped).trans entities, (step_setup stepped).2.1.trans mimics⟩
  rw [← components]
  have admitted := between e member
  cases e with
  | read =>
      obtain ⟨joints, -, rfl⟩ := Option.map_eq_some_iff.1 stepped
      rfl
  | write => exact admitted.elim
  | switch start stop =>
      obtain rfl := Option.some.inj stepped
      rfl
  | command joint kind value =>
      obtain rfl := Option.some.inj stepped
      rfl
  | simulate f => exact admitted.elim

end Loops

section Follow

/-- One iteration, and what happens before the next. -/
theorem Mimics.iteration {K : Type} [CommRing K] {gravity : (Fin 7 → K) → Except String (Fin 7 → K)}
    {updateRate dt p l : K} {s s' : IgnitionSystem K} {mimic : MimicJoint K} {e leader : Entity}
    {ps ls : List K} {f : EntityComponentManager K → EntityComponentManager K}
    {es : List (Event K)} (total : ∀ q, ∃ efforts, gravity q = .ok efforts)
    (mimics : Mimics s mimic e leader) (moves : Moves dt e f) (between : ∀ e ∈ es, e.Between)
    (ran : runs gravity updateRate s (.write :: .simulate f :: es) = some s')
    (there : (s.ecm e).jointPosition = some (p :: ps))
    (ahead : (s.ecm leader).jointPosition = some (l :: ls))
    (commandable : (s.ecm e).jointVelocityCmd ≠ some []) :
    Mimics s' mimic e leader ∧ (s'.ecm e).jointVelocityCmd ≠ some [] ∧
      ∃ ps', (s'.ecm e).jointPosition =
        some ((p + -(p - l * mimic.multiplier) * updateRate * dt) :: ps') := by
  rw [runs, List.foldlM_cons] at ran
  obtain ⟨s₁, first, ran⟩ := Option.bind_eq_some_iff.1 ran
  obtain ⟨⟨result, _⟩, wrote, rfl⟩ := Option.map_eq_some_iff.1 first
  obtain rfl := write_succeeds total wrote
  obtain ⟨⟨vs, sent⟩, kept⟩ := write_mimic mimics wrote there ahead commandable
  rw [List.foldlM_cons] at ran
  obtain ⟨s₂, moved, ran⟩ := Option.bind_eq_some_iff.1 ran
  obtain rfl := Option.some.inj moved
  obtain ⟨components, entities, joints⟩ := between_run between ran
  obtain ⟨⟨ps', arrived⟩, v', vs', left⟩ :=
    moves _ _ _ _ _ ((kept.position e).trans there) sent
  have entities₁ := entities_step first
  have joints₁ := (step_setup first).2.1
  have entities' := entities.trans entities₁
  have joints' := joints.trans joints₁
  refine ⟨⟨?_, mimics.interfaces, entities' ▸ mimics.here, entities' ▸ mimics.leads⟩, ?_, ps', ?_⟩
  · rw [joints', entities']
    exact mimics.alone
  · rw [components, left]
    simp
  · rw [components, arrived]

/-- **How closely a mimic joint follows.**  Of its distance an iteration of length `dt` leaves
the same share, and adds what the joint that it mimics has moved.  If the share is less than one
and the move `δ` at most, the distance comes within any amount of what the share makes of it. -/
theorem mimic_follows {gravity : (Fin 7 → ℝ) → Except String (Fin 7 → ℝ)}
    {updateRate dt p₀ : ℝ} {ps : List ℝ} {mimic : MimicJoint ℝ} {e leader : Entity}
    {σ : ℕ → IgnitionSystem ℝ} {f : ℕ → EntityComponentManager ℝ → EntityComponentManager ℝ}
    {es : ℕ → List (Event ℝ)} {l : ℕ → ℝ} (total : ∀ q, ∃ efforts, gravity q = .ok efforts)
    (ran : ∀ k, runs gravity updateRate (σ k) (.write :: .simulate (f k) :: es k) =
      some (σ (k + 1)))
    (between : ∀ k, ∀ e ∈ es k, e.Between) (moves : ∀ k, Moves dt e (f k))
    (mimics : Mimics (σ 0) mimic e leader) (there : ((σ 0).ecm e).jointPosition = some (p₀ :: ps))
    (commandable : ((σ 0).ecm e).jointVelocityCmd ≠ some [])
    (ahead : ∀ k, ∃ ls, ((σ k).ecm leader).jointPosition = some (l k :: ls)) :
    ∃ p : ℕ → ℝ, p 0 = p₀ ∧ (∀ k, ∃ ps, ((σ k).ecm e).jointPosition = some (p k :: ps)) ∧
      (∀ k, p (k + 1) - mimic.multiplier * l (k + 1) =
        (1 - updateRate * dt) * (p k - mimic.multiplier * l k) -
          mimic.multiplier * (l (k + 1) - l k)) ∧
      ∀ δ, |1 - updateRate * dt| < 1 → (∀ k, |l (k + 1) - l k| ≤ δ) →
        ∀ ε > 0, ∃ N, ∀ k ≥ N, |p k - mimic.multiplier * l k| ≤
          deadBand |1 - updateRate * dt| (|mimic.multiplier| * δ) + ε := by
  have behind : ∀ k, ∃ p, Mimics (σ k) mimic e leader ∧
      ((σ k).ecm e).jointVelocityCmd ≠ some [] ∧
        ∃ ps, ((σ k).ecm e).jointPosition = some (p :: ps) := by
    intro k
    induction k with
    | zero => exact ⟨p₀, mimics, commandable, ps, there⟩
    | succ k ih =>
        obtain ⟨p, mimics, commandable, ps, there⟩ := ih
        obtain ⟨ls, ahead⟩ := ahead k
        exact ⟨_, mimics.iteration total (moves k) (between k) (ran k) there ahead commandable⟩
  choose p mimics commandable position using behind
  have next : ∀ k, p (k + 1) - mimic.multiplier * l (k + 1) =
      (1 - updateRate * dt) * (p k - mimic.multiplier * l k) -
        mimic.multiplier * (l (k + 1) - l k) := by
    intro k
    obtain ⟨ps, there⟩ := position k
    obtain ⟨ls, ahead⟩ := ahead k
    obtain ⟨-, -, ps', arrived⟩ :=
      (mimics k).iteration total (moves k) (between k) (ran k) there ahead (commandable k)
    obtain ⟨ps'', measured⟩ := position (k + 1)
    have same := (List.cons.inj (Option.some.inj (measured.symm.trans arrived))).1
    rw [same]
    ring
  have start : p 0 = p₀ := by
    obtain ⟨ps', measured⟩ := position 0
    exact (List.cons.inj (Option.some.inj (measured.symm.trans there))).1
  refine ⟨p, start, position, next, fun δ settles slow ε positive => ?_⟩
  have shrinks : Shrinks |1 - updateRate * dt| (|mimic.multiplier| * δ)
      fun k => |p k - mimic.multiplier * l k| := by
    refine ⟨abs_nonneg _, settles, fun k => ?_⟩
    show |p (k + 1) - mimic.multiplier * l (k + 1)| ≤ _
    rw [next, ← abs_mul]
    refine (abs_sub _ _).trans (add_le_add_right ?_ _)
    rw [abs_mul]
    exact mul_le_mul_of_nonneg_left (slow k) (abs_nonneg _)
  exact shrinks.eventually_within positive

end Follow

/-- A joint at `l`, and one at `p` that mimics it. -/
def mimicArm (p l : ℝ) : IgnitionSystem ℝ :=
  ⟨{ JointData.blank with simJoint := 2 } :: { JointData.blank with simJoint := 1 } ::
      List.replicate 5 JointData.blank,
    [⟨1, 0, 1, ["position"]⟩], [], [], fun e => componentsAt (if e = 1 then p else l), 1⟩

/-- A simulator that moves the first on, and the second with its velocity. -/
def moveBoth (ecm : EntityComponentManager ℝ) : EntityComponentManager ℝ :=
  fun e => componentsAt (if e = 1 then ((ecm 1).jointPosition.getD []).headD 0 +
    ((ecm 1).jointVelocityCmd.getD []).headD 0 * 1 else ((ecm 2).jointPosition.getD []).headD 0 + 1)

def leadAfter : ℕ → ℝ
  | 0 => 0
  | k + 1 => leadAfter k + 1

def mimicAfter : ℕ → ℝ
  | 0 => 0
  | k + 1 => mimicAfter k + -(mimicAfter k - leadAfter k * 1) * 1 * 1

/-- The mimic joint stays an iteration behind. -/
theorem mimicArm_follows : ∃ p : ℕ → ℝ, p 0 = 0 ∧
    (∀ k, ∃ ps, ((mimicArm (mimicAfter k) (leadAfter k)).ecm 1).jointPosition =
      some (p k :: ps)) ∧
      (∀ k, p (k + 1) - leadAfter (k + 1) = -1) ∧
      ∀ ε > 0, ∃ N, ∀ k ≥ N, |p k - leadAfter k| ≤ 1 + ε := by
  have ran : ∀ k, runs (fun _ => .ok fun _ => 0) 1 (mimicArm (mimicAfter k) (leadAfter k))
      (.write :: .simulate moveBoth :: []) =
        some (mimicArm (mimicAfter (k + 1)) (leadAfter (k + 1))) := fun k => rfl
  have moves : Moves 1 1 moveBoth := by
    intro ecm p ps v vs here sent
    have there : moveBoth ecm 1 = componentsAt (p + v * 1) := by simp [moveBoth, here, sent]
    rw [there]
    exact ⟨⟨[], rfl⟩, 0, [], rfl⟩
  have mimics : Mimics (mimicArm 0 0) ⟨1, 0, 1, ["position"]⟩ 1 2 :=
    ⟨⟨[], [], rfl, by simp⟩, rfl, rfl, rfl⟩
  have slow : ∀ k, |leadAfter (k + 1) - leadAfter k| ≤ 1 := by
    intro k
    simp [leadAfter]
  obtain ⟨p, start, position, next, near⟩ := mimic_follows (fun _ => ⟨_, rfl⟩) ran
    (fun _ _ none => absurd none List.not_mem_nil) (fun _ => moves) mimics rfl
    (by simp [mimicArm, componentsAt]) (fun k => ⟨[], rfl⟩)
  refine ⟨p, start, position, fun k => ?_, fun ε positive => ?_⟩
  · simpa [leadAfter] using next k
  · obtain ⟨N, bound⟩ := near 1 (by norm_num) slow ε positive
    refine ⟨N, fun k late => ?_⟩
    have bounded := bound k late
    simpa [deadBand] using bounded

end FrankaRos.Gazebo
