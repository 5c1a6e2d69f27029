/-
# Gazebo.JointCommands -- what reaches the simulator

`write` finds a joint's command component missing the first time it addresses it.  A velocity
or an effort command is then replaced by the zero with which the component is created
(`command_delivered_iff`); every later one is assigned.

The efforts that make up for gravity come in an array of seven.  A joint behind the seventh
reads past it as soon as it is driven by effort, and with an effort interface it is driven so
from the beginning (`runs_defined_iff`).
-/
import FrankaRos.Gazebo.ControlMethods

namespace FrankaRos.Gazebo

open FrankaRos.Theory ControlMethod

set_option autoImplicit false

variable {K : Type} [Zero K] [Add K] [Sub K] [Mul K] [Neg K]

/-! ## One `write`, joint by joint -/

section Write

variable {jointEfforts : Fin 7 → K} {gain updateRate : K}

/-- The first loop leaves the entities of other joints alone. -/
theorem commandJoints_frame {k : Nat} {joints : List (JointData K)} {e : Entity}
    {ecm ecm' : EntityComponentManager K}
    (ran : commandJoints jointEfforts gain updateRate k joints ecm = some ecm')
    (other : ∀ joint ∈ joints, joint.simJoint ≠ e) : ecm' e = ecm e := by
  induction joints generalizing k ecm with
  | nil => rw [Option.some.inj ran]
  | cons joint rest ih =>
      have others : ∀ joint ∈ rest, joint.simJoint ≠ e :=
        fun joint member => other joint (List.mem_cons_of_mem _ member)
      unfold commandJoints at ran
      split at ran
      · exact ih ran others
      · obtain ⟨c, -, rest⟩ := Option.bind_eq_some_iff.1 ran
        rw [ih rest others, Function.update_of_ne (other joint List.mem_cons_self).symm]

/-- A joint with an entity of its own gets its own commands. -/
theorem commandJoints_at {k i : Nat} {joints : List (JointData K)} {joint : JointData K}
    {ecm ecm' : EntityComponentManager K}
    (ran : commandJoints jointEfforts gain updateRate k joints ecm = some ecm')
    (here : joints[i]? = some joint) (found : joint.simJoint ≠ kNullEntity)
    (own : ∀ j other, joints[j]? = some other → other.simJoint = joint.simJoint → j = i) :
    commandJoint jointEfforts gain updateRate (k + i) joint (ecm joint.simJoint) =
      some (ecm' joint.simJoint) := by
  induction joints generalizing k i ecm with
  | nil => simp at here
  | cons first others ih =>
      unfold commandJoints at ran
      cases i with
      | zero =>
          obtain rfl := Option.some.inj here
          rw [if_neg found] at ran
          obtain ⟨c, commanded, rest⟩ := Option.bind_eq_some_iff.1 ran
          have apart : ∀ other ∈ others, other.simJoint ≠ first.simJoint := by
            intro other member same
            obtain ⟨j, bound, rfl⟩ := List.getElem_of_mem member
            exact absurd (own (j + 1) _ (List.getElem?_eq_getElem bound) same) (Nat.succ_ne_zero j)
          rw [commandJoints_frame rest apart, Function.update_self]
          exact commanded
      | succ i =>
          have apart : first.simJoint ≠ joint.simJoint := fun same =>
            absurd (own 0 first rfl same) (Nat.succ_ne_zero i).symm
          have own' : ∀ j other, others[j]? = some other → other.simJoint = joint.simJoint → j = i :=
            fun j other listed same => Nat.succ.inj (own (j + 1) other listed same)
          rw [← Nat.add_assoc, Nat.add_right_comm]
          split at ran
          · exact ih ran here own'
          · obtain ⟨c, -, rest⟩ := Option.bind_eq_some_iff.1 ran
            have commanded := ih rest here own'
            rwa [Function.update_of_ne apart.symm] at commanded

omit [Add K] in
/-- A mimic joint's interfaces concern its own entity only. -/
theorem mimicInterface_frame {joints : List (JointData K)} {mimic : MimicJoint K} {e : Entity}
    {ecm ecm' : EntityComponentManager K} {interface : String}
    (ran : mimicInterface updateRate joints mimic ecm interface = some ecm')
    (other : ∀ joint, joints[mimic.jointIndex]? = some joint → joint.simJoint ≠ e) :
    ecm' e = ecm e := by
  simp only [mimicInterface, Option.bind_eq_bind, Option.bind_eq_some_iff] at ran
  obtain ⟨joint, here, mimicked, -, ran⟩ := ran
  have apart := (other joint here).symm
  split at ran
  · simp only [Option.bind_eq_some_iff] at ran
    obtain ⟨_, -, _, -, _, -, _, -, same⟩ := ran
    rw [← Option.some.inj same, Function.update_of_ne apart]
  split at ran
  · simp only [Option.bind_eq_some_iff] at ran
    obtain ⟨_, -, _, -, same⟩ := ran
    rw [← Option.some.inj same, Function.update_of_ne apart]
  split at ran
  · rw [← Option.some.inj ran, Function.update_of_ne apart]
  · rw [Option.some.inj ran]

/-- A `write` that fails changes nothing. -/
theorem write_error {gravity : (Fin 7 → K) → Except String (Fin 7 → K)} {s s' : IgnitionSystem K}
    (ran : write gravity updateRate s = some (.error, s')) : s' = s := by
  simp only [write, Option.bind_eq_bind, Option.bind_eq_some_iff] at ran
  obtain ⟨q, -, ran⟩ := ran
  split at ran
  · cases ran
    rfl
  · simp [Option.bind_eq_some_iff] at ran

/-- Where the gravity model does not throw, a `write` succeeds. -/
theorem write_succeeds {gravity : (Fin 7 → K) → Except String (Fin 7 → K)}
    {s s' : IgnitionSystem K} {result : ReturnType} (total : ∀ q, ∃ efforts, gravity q = .ok efforts)
    (wrote : write gravity updateRate s = some (result, s')) : result = .ok := by
  simp only [write, Option.bind_eq_bind, Option.bind_eq_some_iff] at wrote
  obtain ⟨q, -, wrote⟩ := wrote
  obtain ⟨efforts, computed⟩ := total q
  rw [computed] at wrote
  simp only [Option.bind_eq_some_iff] at wrote
  obtain ⟨_, -, _, -, same⟩ := wrote
  exact (congrArg Prod.fst (Option.some.inj same)).symm

/-- The entity of a joint is no other joint's, and no mimic joint's. -/
structure Own (s : IgnitionSystem K) (i : Nat) (joint : JointData K) : Prop where
  here : s.joints[i]? = some joint
  found : joint.simJoint ≠ kNullEntity
  alone : ∀ j other, s.joints[j]? = some other → other.simJoint = joint.simJoint → j = i
  unmimicked : ∀ mimic ∈ s.mimicJoints, mimic.jointIndex ≠ i

/-- The two loops of a `write` that succeeds. -/
theorem write_ok {gravity : (Fin 7 → K) → Except String (Fin 7 → K)} {s s' : IgnitionSystem K}
    (ran : write gravity updateRate s = some (.ok, s')) :
    ∃ q jointEfforts ecm, collectPositions s.joints = some q ∧ gravity q = .ok jointEfforts ∧
      commandJoints jointEfforts s.positionProportionalGain updateRate 0 s.joints s.ecm =
        some ecm ∧
      s.mimicJoints.foldlM (fun ecm mimic => mimic.interfacesToMimic.foldlM
        (mimicInterface updateRate s.joints mimic) ecm) ecm = some s'.ecm := by
  simp only [write, Option.bind_eq_bind, Option.bind_eq_some_iff] at ran
  obtain ⟨q, collected, ran⟩ := ran
  split at ran
  · cases ran
  · rename_i jointEfforts computed
    simp only [Option.bind_eq_some_iff] at ran
    obtain ⟨ecm, commanded, ecm', mimicked, same⟩ := ran
    cases same
    exact ⟨q, jointEfforts, ecm, collected, computed, commanded, mimicked⟩

/-- What a `write` that succeeds does to the components of such a joint. -/
theorem write_at {gravity : (Fin 7 → K) → Except String (Fin 7 → K)} {s s' : IgnitionSystem K}
    {i : Nat} {joint : JointData K} (ran : write gravity updateRate s = some (.ok, s'))
    (own : Own s i joint) :
    ∃ q jointEfforts, collectPositions s.joints = some q ∧ gravity q = .ok jointEfforts ∧
      commandJoint jointEfforts s.positionProportionalGain updateRate i joint
        (s.ecm joint.simJoint) = some (s'.ecm joint.simJoint) := by
  obtain ⟨q, jointEfforts, ecm, collected, computed, commanded, mimicked⟩ := write_ok ran
  refine ⟨q, jointEfforts, collected, computed, ?_⟩
  have kept : s'.ecm joint.simJoint = ecm joint.simJoint := by
    apply foldlM_invariant (I := fun t => t joint.simJoint = ecm joint.simJoint) _ rfl mimicked
    intro t t' mimic member before looped
    apply foldlM_invariant (I := fun t => t joint.simJoint = ecm joint.simJoint) _ before looped
    intro t t' interface _ before stepped
    rw [← before]
    apply mimicInterface_frame stepped
    intro other there same
    exact own.unmimicked mimic member (own.alone _ other there same)
  have sent := commandJoints_at commanded own.here own.found own.alone
  rw [Nat.zero_add] at sent
  rw [kept]
  exact sent

end Write

/-! ## The components that a `write` addresses -/

/-- The two command components. -/
inductive Side
  | velocity | force
  deriving DecidableEq, Repr

def Components.cmd (side : Side) (c : Components K) : Option (List K) :=
  match side with
  | .velocity => c.jointVelocityCmd
  | .force => c.jointForceCmd

/-- The component that a joint's commands go to. -/
def JointData.addressed (joint : JointData K) : Option Side :=
  if joint.jointControlMethod.has VELOCITY then some .velocity
  else if joint.jointControlMethod.has POSITION then some .velocity
  else if joint.jointControlMethod.has EFFORT then some .force
  else if joint.isActuated then some .velocity
  else none

/-- The component that takes a controller's command as it is. -/
def JointData.assigned (joint : JointData K) : Option Side :=
  if joint.jointControlMethod.has VELOCITY then some .velocity
  else if joint.jointControlMethod.has POSITION then none
  else if joint.jointControlMethod.has EFFORT then some .force
  else none

/-- The command that is meant for it. -/
def JointData.meant (jointEfforts : Fin 7 → K) (i : Nat) (joint : JointData K) : Option K :=
  if joint.jointControlMethod.has VELOCITY then some joint.jointVelocityCmd
  else if inside : i < 7 then some (joint.jointEffortCmd + jointEfforts ⟨i, inside⟩)
  else none

section Sides

variable {jointEfforts : Fin 7 → K} {gain updateRate : K} {i : Nat} {joint : JointData K}
  {c c' : Components K} {side : Side}

theorem isSome_cmd (ran : commandJoint jointEfforts gain updateRate i joint c = some c') :
    (c'.cmd side).isSome = true ↔ (c.cmd side).isSome = true ∨ joint.addressed = some side := by
  have created : ∀ value data, (createOrAssign value data : Option (List K)).isSome = true ∧
      (createOrStore value data).isSome = true := by
    intro value data
    cases data <;> exact ⟨rfl, rfl⟩
  unfold commandJoint at ran
  unfold JointData.addressed
  split at ran
  · cases ran
    cases side <;> simp [*, Components.cmd]
  split at ran
  · cases ran
    cases side <;> simp [*, Components.cmd]
  split at ran
  · split at ran
    · cases ran
      cases side <;> simp [*, Components.cmd]
    · split at ran
      · cases ran
        cases side <;> simp [*, Components.cmd]
      · cases ran
  split at ran
  · cases ran
    cases side <;> simp [*, Components.cmd]
  · cases ran
    simp [*]

theorem cmd_of_assigned (ran : commandJoint jointEfforts gain updateRate i joint c = some c')
    (assigned : joint.assigned = some side) :
    c'.cmd side = if (c.cmd side).isSome then (joint.meant jointEfforts i).map ([·]) else some [0] := by
  unfold commandJoint at ran
  unfold JointData.assigned at assigned
  unfold JointData.meant
  split at ran
  · rename_i velocity
    rw [if_pos velocity] at assigned ⊢
    cases assigned
    cases ran
    show createOrAssign _ c.jointVelocityCmd = if c.jointVelocityCmd.isSome then _ else _
    cases c.jointVelocityCmd <;> rfl
  rename_i velocity
  rw [if_neg velocity] at assigned ⊢
  split at ran
  · rename_i position
    rw [if_pos position] at assigned
    cases assigned
  rename_i position
  rw [if_neg position] at assigned
  split at ran
  · rename_i effort
    rw [if_pos effort] at assigned
    cases assigned
    show c'.jointForceCmd = if c.jointForceCmd.isSome then _ else _
    split at ran
    · rename_i absent
      cases ran
      rw [absent]
      rfl
    · rename_i data present
      split at ran
      · rename_i inside
        cases ran
        rw [present, dif_pos inside]
        rfl
      · cases ran
  · rename_i effort
    rw [if_neg effort] at assigned
    cases assigned

end Sides

/-! ## Runs -/

/-- The simulator neither creates nor removes command components. -/
def Event.KeepsCommands : Event K → Prop
  | .simulate f => ∀ ecm e side, ((f ecm e).cmd side).isSome = ((ecm e).cmd side).isSome
  | _ => True

section Runs

variable {gravity : (Fin 7 → K) → Except String (Fin 7 → K)} {updateRate : K}
  {s s' s₁ s₂ : IgnitionSystem K} {es : List (Event K)} {i : Nat} {joint joint₁ : JointData K}
  {side : Side}

theorem Own.behind (own : Own s i joint) (ran : runs gravity updateRate s es = some s₁)
    (there : s₁.joints[i]? = some joint₁) :
    Own s₁ i joint₁ ∧ joint₁.simJoint = joint.simJoint := by
  have entity : ∀ {j : Nat} {other other₁ : JointData K}, s.joints[j]? = some other → s₁.joints[j]? = some other₁ →
      other₁.simJoint = other.simJoint := by
    intro j other other₁ here there
    obtain ⟨other', same, setup⟩ := runs_setup ran here
    obtain rfl := Option.some.inj (there.symm.trans same)
    exact (congrArg Setup.simJoint setup).trans (kept_run es other.setup).2.1
  have same := entity own.here there
  refine ⟨⟨there, same ▸ own.found, ?_, ?_⟩, same⟩
  · intro j other₁ listed shared
    obtain ⟨other, here, -⟩ := runs_joint ran listed
    exact own.alone j other here ((entity here listed).symm.trans (shared.trans same))
  · rw [(runs_setups ran).2.1]
    exact own.unmimicked

variable (gravity updateRate s es i side) in
/-- Some `write` of the run succeeded and addressed the component of the `i`-th joint. -/
def Addressed : Prop :=
  ∃ pre post s₁ s₂ joint₁, es = pre ++ .write :: post ∧ runs gravity updateRate s pre = some s₁ ∧
    write gravity updateRate s₁ = some (.ok, s₂) ∧ s₁.joints[i]? = some joint₁ ∧
      joint₁.addressed = some side

/-- What one more event adds to the writes that address a component. -/
theorem addressed_concat (e : Event K) :
    Addressed gravity updateRate s (es ++ [e]) i side ↔
      Addressed gravity updateRate s es i side ∨ e = .write ∧ ∃ s₁ s₂ joint₁,
        runs gravity updateRate s es = some s₁ ∧ write gravity updateRate s₁ = some (.ok, s₂) ∧
          s₁.joints[i]? = some joint₁ ∧ joint₁.addressed = some side := by
  constructor
  · rintro ⟨pre, post, s₁, s₂, joint₁, parts, ran, wrote, there, addressed⟩
    rcases concat_eq_split_iff.1 parts with ⟨rfl, last, rfl⟩ | ⟨post, rfl, rfl⟩
    · exact .inr ⟨last, s₁, s₂, joint₁, ran, wrote, there, addressed⟩
    · exact .inl ⟨pre, post, s₁, s₂, joint₁, rfl, ran, wrote, there, addressed⟩
  · rintro (⟨pre, post, s₁, s₂, joint₁, rfl, rest⟩ | ⟨rfl, s₁, s₂, joint₁, rest⟩)
    · exact ⟨pre, post ++ [e], s₁, s₂, joint₁, by simp, rest⟩
    · exact ⟨es, [], s₁, s₂, joint₁, rfl, rest⟩

/-- One event makes a command component only by a `write` that addresses it. -/
theorem isSome_cmd_step {e : Event K} (own : Own s i joint) (keeps : e.KeepsCommands)
    (stepped : step gravity updateRate s e = some s') :
    ((s'.ecm joint.simJoint).cmd side).isSome = true ↔
      ((s.ecm joint.simJoint).cmd side).isSome = true ∨
        e = .write ∧ (∃ s₂, write gravity updateRate s = some (.ok, s₂)) ∧
          joint.addressed = some side := by
  cases e with
  | read =>
      obtain ⟨joints, -, rfl⟩ := Option.map_eq_some_iff.1 stepped
      simp
  | switch start stop =>
      obtain rfl := Option.some.inj stepped
      simp [performCommandModeSwitch]
  | command j kind value =>
      obtain rfl := Option.some.inj stepped
      simp
  | simulate f =>
      obtain rfl := Option.some.inj stepped
      simp [keeps s.ecm joint.simJoint side]
  | write =>
      obtain ⟨⟨result, s''⟩, wrote, rfl⟩ := Option.map_eq_some_iff.1 stepped
      cases result with
      | ok =>
          obtain ⟨_, jointEfforts, -, -, commanded⟩ := write_at wrote own
          rw [isSome_cmd commanded]
          simp [wrote]
      | error =>
          obtain rfl := write_error wrote
          simp [wrote]

/-- A joint's command component is there exactly if it was from the beginning, or a `write`
addressed it. -/
theorem isSome_cmd_iff (own : Own s i joint) (keeps : ∀ e ∈ es, e.KeepsCommands)
    (ran : runs gravity updateRate s es = some s₁) :
    ((s₁.ecm joint.simJoint).cmd side).isSome = true ↔
      ((s.ecm joint.simJoint).cmd side).isSome = true ∨
        Addressed gravity updateRate s es i side := by
  induction es using List.reverseRecOn generalizing s₁ with
  | nil =>
      obtain rfl := Option.some.inj ran
      refine (or_iff_left ?_).symm
      rintro ⟨pre, post, _, _, _, parts, -⟩
      simp at parts
  | append_singleton es e ih =>
      rw [runs_append] at ran
      obtain ⟨t, first, last⟩ := Option.bind_eq_some_iff.1 ran
      have before := ih (fun e member => keeps e (List.mem_append_left _ member)) first
      rw [addressed_concat, ← or_assoc, ← before]
      replace last : step gravity updateRate t e = some s₁ := by simpa [runs] using last
      obtain ⟨joint₁, there, -⟩ := runs_setup first own.here
      obtain ⟨own₁, same⟩ := own.behind first there
      rw [← same, isSome_cmd_step own₁ (keeps e (by simp)) last]
      refine or_congr_right (and_congr_right fun _ => ?_)
      constructor
      · rintro ⟨⟨s₂, wrote⟩, addressed⟩
        exact ⟨t, s₂, joint₁, first, wrote, there, addressed⟩
      · rintro ⟨t', s₂, joint₂, again, wrote, there', addressed⟩
        obtain rfl := Option.some.inj (first.symm.trans again)
        obtain rfl := Option.some.inj (there.symm.trans there')
        exact ⟨⟨s₂, wrote⟩, addressed⟩

/-- **What is delivered.**  A velocity or an effort command arrives as it is meant, unless it is
not zero and no earlier `write` has addressed its component, which was not there either. -/
theorem command_delivered_iff (own : Own s i joint) (keeps : ∀ e ∈ es, e.KeepsCommands)
    (ran : runs gravity updateRate s es = some s₁) (there : s₁.joints[i]? = some joint₁)
    (assigned : joint₁.assigned = some side)
    (wrote : write gravity updateRate s₁ = some (.ok, s₂)) :
    ∃ q jointEfforts, collectPositions s₁.joints = some q ∧ gravity q = .ok jointEfforts ∧
      ((s₂.ecm joint.simJoint).cmd side = (joint₁.meant jointEfforts i).map ([·]) ↔
        joint₁.meant jointEfforts i = some 0 ∨
          ((s.ecm joint.simJoint).cmd side).isSome = true ∨
            Addressed gravity updateRate s es i side) := by
  obtain ⟨own₁, same⟩ := own.behind ran there
  obtain ⟨q, jointEfforts, collected, computed, commanded⟩ := write_at wrote own₁
  refine ⟨q, jointEfforts, collected, computed, ?_⟩
  rw [← isSome_cmd_iff own keeps ran, ← same, cmd_of_assigned commanded assigned]
  cases present : ((s₁.ecm joint₁.simJoint).cmd side).isSome with
  | true => simp
  | false =>
      cases joint₁.meant jointEfforts i with
      | none => simp
      | some value => simp [eq_comm]

def effortJoint (i : Nat) : JointData Int :=
  { JointData.blank with
    name := toString i, simJoint := i + 1, jointControlMethod := EFFORT, jointEffortCmd := 5 }

/-- Seven joints that are driven by effort. -/
def drivenByEffort : IgnitionSystem Int :=
  ⟨(List.range 7).map effortJoint, [], [], [], fun _ => {}, 1⟩

theorem own_drivenByEffort : Own drivenByEffort 0 (effortJoint 0) where
  here := rfl
  found := by decide
  alone j other listed shared := by
    simp only [drivenByEffort, List.getElem?_map, Option.map_eq_some_iff] at listed
    obtain ⟨i, place, rfl⟩ := listed
    obtain ⟨_, rfl⟩ := List.getElem?_eq_some_iff.1 place
    simpa [effortJoint] using shared
  unmimicked := by simp [drivenByEffort]

theorem secondWrite_delivered : ∃ s₁ s₂,
    runs (fun _ => .ok fun _ => 1) 1 drivenByEffort [.write] = some s₁ ∧
      write (fun _ => .ok fun _ => 1) 1 s₁ = some (.ok, s₂) ∧
      (s₂.ecm 1).jointForceCmd = some [5 + 1] := by
  let gravity : (Fin 7 → Int) → Except String (Fin 7 → Int) := fun _ => .ok fun _ => 1
  have twice : ((write gravity 1 drivenByEffort).bind fun r =>
      (write gravity 1 r.2).map fun r' => (r.1, r'.1)) = some (.ok, .ok) := rfl
  obtain ⟨⟨_, s₁⟩, wrote, again⟩ := Option.bind_eq_some_iff.1 twice
  obtain ⟨⟨_, s₂⟩, wrote', results⟩ := Option.map_eq_some_iff.1 again
  cases results
  have ran : runs gravity 1 drivenByEffort [.write] = some s₁ := by simp [runs, step, wrote]
  have there : s₁.joints[0]? = some (effortJoint 0) := by
    rw [write_eq wrote]
    rfl
  have assigned : (effortJoint 0).assigned = some .force := by decide
  have addressed : (effortJoint 0).addressed = some .force := by decide
  obtain ⟨q, jointEfforts, -, computed, delivered⟩ := command_delivered_iff own_drivenByEffort
    (by simp [Event.KeepsCommands]) ran there assigned wrote'
  cases computed
  exact ⟨s₁, s₂, ran, wrote', delivered.2 (.inr (.inr
    ⟨[], [], drivenByEffort, s₁, effortJoint 0, rfl, rfl, wrote, rfl, addressed⟩))⟩

end Runs

/-! ## Where a run stays defined -/

/-- The simulator tells where the joint is, how fast it moves, and what it carries. -/
structure Components.Readable (c : Components K) : Prop where
  position : ∃ p ps, c.jointPosition = some (p :: ps)
  velocity : ∃ v vs, c.jointVelocity = some (v :: vs)
  wrench : ∃ w, c.jointTransmittedWrench = some w

def Event.KeepsReadable : Event K → Prop
  | .simulate f => ∀ ecm e, (ecm e).Readable → (f ecm e).Readable
  | _ => True

section Defined

variable {gravity : (Fin 7 → K) → Except String (Fin 7 → K)} {jointEfforts : Fin 7 → K}
  {gain updateRate : K}

/-- Commands do not touch what can be read. -/
theorem commandJoint_readable {i : Nat} {joint : JointData K} {c c' : Components K}
    (ran : commandJoint jointEfforts gain updateRate i joint c = some c') (readable : c.Readable) :
    c'.Readable := by
  obtain ⟨position, velocity, wrench⟩ := readable
  unfold commandJoint at ran
  repeat' split at ran
  all_goals cases ran <;> exact ⟨position, velocity, wrench⟩

theorem commandJoints_readable {k : Nat} {joints : List (JointData K)} {e : Entity}
    {ecm ecm' : EntityComponentManager K}
    (ran : commandJoints jointEfforts gain updateRate k joints ecm = some ecm')
    (readable : (ecm e).Readable) : (ecm' e).Readable := by
  induction joints generalizing k ecm with
  | nil =>
      rw [← Option.some.inj ran]
      exact readable
  | cons joint rest ih =>
      unfold commandJoints at ran
      split at ran
      · exact ih ran readable
      · obtain ⟨c, commanded, rest⟩ := Option.bind_eq_some_iff.1 ran
        apply ih rest
        by_cases here : e = joint.simJoint
        · subst here
          rw [Function.update_self]
          exact commandJoint_readable commanded readable
        · rwa [Function.update_of_ne here]

/-- A joint that is found and read past the seventh. -/
def Reaches (i : Nat) (joint : JointData K) : Prop :=
  7 ≤ i ∧ joint.simJoint ≠ kNullEntity ∧ joint.jointControlMethod.has EFFORT = true

theorem commandJoints_defined {k : Nat} {joints : List (JointData K)}
    {ecm : EntityComponentManager K}
    (within : ∀ i joint, joints[i]? = some joint → ¬ Reaches (k + i) joint) :
    ∃ ecm', commandJoints jointEfforts gain updateRate k joints ecm = some ecm' := by
  induction joints generalizing k ecm with
  | nil => exact ⟨ecm, rfl⟩
  | cons joint rest ih =>
      have others : ∀ i other, rest[i]? = some other → ¬ Reaches (k + 1 + i) other := by
        intro i other there
        rw [Nat.add_assoc, Nat.add_comm 1]
        exact within (i + 1) other there
      unfold commandJoints
      split
      · exact ih others
      · rename_i found
        have commanded : ∃ c, commandJoint jointEfforts gain updateRate k joint
            (ecm joint.simJoint) = some c := by
          have first := within 0 joint rfl
          unfold commandJoint
          repeat' split
          all_goals first | exact ⟨_, rfl⟩ | skip
          rename_i effort _ _ _ outside
          exact absurd ⟨Nat.le_of_not_lt outside, found, effort⟩ first
        obtain ⟨c, commanded⟩ := commanded
        simp only [commanded, Option.bind_eq_bind, Option.bind_some]
        exact ih others

def IgnitionSystem.entities (s : IgnitionSystem K) : List Entity := s.joints.map JointData.simJoint

theorem entities_step {s s' : IgnitionSystem K} {e : Event K}
    (stepped : step gravity updateRate s e = some s') : s'.entities = s.entities := by
  have entity : ∀ l : List (JointData K), l.map JointData.simJoint =
      (l.map JointData.setup).map Setup.simJoint := by
    intro l
    rw [List.map_map]
    rfl
  rw [IgnitionSystem.entities, IgnitionSystem.entities, entity, entity, (step_setup stepped).1,
    List.map_map]
  apply List.map_congr_left
  intro u _
  cases e <;> rfl

/-- A system that `read` and the mimic joints find everything in. -/
structure Sound (s : IgnitionSystem K) : Prop where
  enough : 7 ≤ s.entities.length
  placed : ∀ mimic ∈ s.mimicJoints, ∀ index ∈ [mimic.jointIndex, mimic.mimickedJointIndex],
    ∃ e, s.entities[index]? = some e ∧ e ≠ kNullEntity
  readable : ∀ e ∈ s.entities, e ≠ kNullEntity → (s.ecm e).Readable

omit [Zero K] [Sub K] [Neg K] in
theorem readJoints_defined {ecm : EntityComponentManager K} {joints : List (JointData K)}
    (readable : ∀ joint ∈ joints, joint.simJoint ≠ kNullEntity → (ecm joint.simJoint).Readable) :
    ∃ joints', readJoints ecm joints = some joints' := by
  induction joints with
  | nil => exact ⟨[], rfl⟩
  | cons joint rest ih =>
      obtain ⟨rest', others⟩ := ih fun joint member => readable joint (List.mem_cons_of_mem _ member)
      have first : ∃ joint', readJoint ecm joint = some joint' := by
        unfold readJoint
        split
        · exact ⟨_, rfl⟩
        · rename_i found
          obtain ⟨⟨p, ps, position⟩, ⟨v, vs, velocity⟩, w, wrench⟩ :=
            readable joint List.mem_cons_self found
          simp [position, velocity, wrench]
      obtain ⟨joint', first⟩ := first
      exact ⟨joint' :: rest', by simp [readJoints, first, others]⟩

omit [Add K] in
theorem mimicInterface_defined {joints : List (JointData K)} {mimic : MimicJoint K}
    {ecm : EntityComponentManager K} {joint mimicked : JointData K} (interface : String)
    (here : joints[mimic.jointIndex]? = some joint)
    (there : joints[mimic.mimickedJointIndex]? = some mimicked)
    (readable : (ecm joint.simJoint).Readable) (readable' : (ecm mimicked.simJoint).Readable) :
    ∃ ecm', mimicInterface updateRate joints mimic ecm interface = some ecm' ∧
      ∀ e, (ecm e).Readable → (ecm' e).Readable := by
  have kept : ∀ c : Components K, c.Readable →
      ∀ e, (ecm e).Readable → (Function.update ecm joint.simJoint c e).Readable := by
    intro c same e before
    by_cases own : e = joint.simJoint
    · subst own
      rwa [Function.update_self]
    · rwa [Function.update_of_ne own]
  obtain ⟨⟨p, ps, position⟩, velocity, wrench⟩ := readable
  obtain ⟨⟨p', ps', position'⟩, ⟨v', vs', velocity'⟩, -⟩ := readable'
  simp only [mimicInterface, here, there, Option.bind_eq_bind, Option.bind_some, position,
    position', velocity', List.getElem?_cons_zero]
  split
  · exact ⟨_, rfl, kept _ ⟨⟨p, ps, rfl⟩, velocity, wrench⟩⟩
  split
  · exact ⟨_, rfl, kept _ ⟨⟨p, ps, rfl⟩, velocity, wrench⟩⟩
  split
  · exact ⟨_, rfl, kept _ ⟨⟨p, ps, rfl⟩, velocity, wrench⟩⟩
  · exact ⟨ecm, rfl, fun e before => before⟩

/-- A loop whose rounds are all defined while something holds. -/
theorem foldlM_defined {α β : Type} {f : α → β → Option α} {I : α → Prop} {l : List β} {a : α}
    (defined : ∀ a, ∀ b ∈ l, I a → ∃ a', f a b = some a' ∧ I a') (start : I a) :
    ∃ a', l.foldlM f a = some a' ∧ I a' := by
  induction l generalizing a with
  | nil => exact ⟨a, rfl, start⟩
  | cons b l ih =>
      obtain ⟨a', first, held⟩ := defined a b List.mem_cons_self start
      obtain ⟨a'', rest, held⟩ := ih (fun a b member => defined a b (List.mem_cons_of_mem _ member))
        held
      exact ⟨a'', by simp [List.foldlM_cons, first, rest], held⟩

theorem Sound.write_defined {s : IgnitionSystem K} (sound : Sound s)
    (within : ∀ i joint, s.joints[i]? = some joint → ¬ Reaches i joint) :
    ∃ result s', write gravity updateRate s = some (result, s') ∧
      ∀ e, (s.ecm e).Readable → (s'.ecm e).Readable := by
  have enough : 7 ≤ s.joints.length := by simpa [IgnitionSystem.entities] using sound.enough
  simp only [write, collectPositions, dif_pos enough, Option.bind_eq_bind, Option.bind_some]
  split
  · exact ⟨_, _, rfl, fun e before => before⟩
  · rename_i jointEfforts computed
    have within : ∀ i joint, s.joints[i]? = some joint → ¬ Reaches (0 + i) joint := by
      simpa using within
    obtain ⟨ecm, commanded⟩ : ∃ ecm, commandJoints jointEfforts s.positionProportionalGain
      updateRate 0 s.joints s.ecm = some ecm := commandJoints_defined within
    have entity : ∀ (index : Nat) e, s.entities[index]? = some e →
        ∃ joint : JointData K, s.joints[index]? = some joint ∧ joint.simJoint = e := by
      intro index e listed
      rw [IgnitionSystem.entities, List.getElem?_map] at listed
      exact Option.map_eq_some_iff.1 listed
    have kept : ∀ e, (s.ecm e).Readable → (ecm e).Readable :=
      fun e => commandJoints_readable commanded
    obtain ⟨ecm', mimicked, kept'⟩ : ∃ ecm', s.mimicJoints.foldlM (fun ecm mimic =>
        mimic.interfacesToMimic.foldlM (mimicInterface updateRate s.joints mimic) ecm) ecm =
          some ecm' ∧ ∀ e, (s.ecm e).Readable → (ecm' e).Readable := by
      apply foldlM_defined
        (I := fun t : EntityComponentManager K => ∀ e, (s.ecm e).Readable → (t e).Readable) _ kept
      intro t mimic member before
      obtain ⟨e, listed, found⟩ := sound.placed mimic member _ (.head _)
      obtain ⟨e', listed', found'⟩ := sound.placed mimic member _ (.tail _ (.head _))
      obtain ⟨joint, here, rfl⟩ := entity _ e listed
      obtain ⟨mimicked, there, rfl⟩ := entity _ e' listed'
      have readable := sound.readable _ (List.mem_of_getElem? listed) found
      have readable' := sound.readable _ (List.mem_of_getElem? listed') found'
      apply foldlM_defined
        (I := fun t : EntityComponentManager K => ∀ e, (s.ecm e).Readable → (t e).Readable) _ before
      intro t interface _ before
      obtain ⟨t', ran, held⟩ := mimicInterface_defined interface here there
        (before _ readable) (before _ readable')
      exact ⟨t', ran, fun e first => held e (before e first)⟩
    exact ⟨.ok, { s with ecm := ecm' }, by simp [commanded, mimicked], kept'⟩

omit [Zero K] [Sub K] [Neg K] in
theorem Sound.read_defined {s : IgnitionSystem K} (sound : Sound s) : ∃ s', read s = some s' := by
  obtain ⟨joints, ran⟩ := readJoints_defined fun joint member =>
    sound.readable joint.simJoint (List.mem_map_of_mem member)
  exact ⟨{ s with joints := joints }, by rw [read, ran]; rfl⟩

/-- Every event is defined where no joint reaches past the seventh, and keeps the system sound. -/
theorem Sound.step {s : IgnitionSystem K} (sound : Sound s) {e : Event K} (keeps : e.KeepsReadable)
    (within : ∀ i joint, s.joints[i]? = some joint → ¬ Reaches i joint) :
    ∃ s', Gazebo.step gravity updateRate s e = some s' ∧ Sound s' := by
  have kept : ∀ {s'}, Gazebo.step gravity updateRate s e = some s' →
      (∀ e, (s.ecm e).Readable → (s'.ecm e).Readable) → Sound s' := by
    intro s' stepped kept
    have same := entities_step stepped
    refine ⟨same ▸ sound.enough, ?_, ?_⟩
    · rw [same, (step_setup stepped).2.1]
      exact sound.placed
    · rw [same]
      exact fun e member found => kept e (sound.readable e member found)
  cases e with
  | read =>
      obtain ⟨s', ran⟩ := sound.read_defined
      refine ⟨s', ran, kept ran ?_⟩
      obtain ⟨joints, -, rfl⟩ := Option.map_eq_some_iff.1 ran
      exact fun e before => before
  | write =>
      obtain ⟨result, s', ran, held⟩ := sound.write_defined within
      have stepped : Gazebo.step gravity updateRate s .write = some s' := by
        rw [Gazebo.step, ran]
        rfl
      exact ⟨s', stepped, kept stepped held⟩
  | switch start stop => exact ⟨_, rfl, kept rfl fun e before => before⟩
  | command joint kind value => exact ⟨_, rfl, kept rfl fun e before => before⟩
  | simulate f => exact ⟨_, rfl, kept rfl fun e before => keeps s.ecm e before⟩

omit [Add K] in
/-- Mimic joints take no command component away. -/
theorem mimicInterface_keeps {joints : List (JointData K)} {mimic : MimicJoint K} {e : Entity}
    {ecm ecm' : EntityComponentManager K} {interface : String}
    (ran : mimicInterface updateRate joints mimic ecm interface = some ecm')
    (present : (ecm e).jointForceCmd.isSome = true) : (ecm' e).jointForceCmd.isSome = true := by
  simp only [mimicInterface, Option.bind_eq_bind, Option.bind_eq_some_iff] at ran
  obtain ⟨joint, here, mimicked, -, ran⟩ := ran
  have kept : ∀ c : Components K, (e = joint.simJoint → c.jointForceCmd.isSome = true) →
      (Function.update ecm joint.simJoint c e).jointForceCmd.isSome = true := by
    intro c same
    by_cases own : e = joint.simJoint
    · rw [own, Function.update_self]
      exact same own
    · rwa [Function.update_of_ne own]
  split at ran
  · simp only [Option.bind_eq_some_iff] at ran
    obtain ⟨_, -, _, -, _, -, _, -, same⟩ := ran
    rw [← Option.some.inj same]
    exact kept _ fun own => own ▸ present
  split at ran
  · simp only [Option.bind_eq_some_iff] at ran
    obtain ⟨_, -, _, -, same⟩ := ran
    rw [← Option.some.inj same]
    exact kept _ fun own => own ▸ present
  split at ran
  · rw [← Option.some.inj ran]
    refine kept _ fun own => ?_
    cases (ecm joint.simJoint).jointForceCmd <;> rfl
  · rwa [← Option.some.inj ran]

/-- A `write` that drives a joint past the seventh by effort is defined only while the command
component is missing, and makes it. -/
theorem write_past {s s' : IgnitionSystem K} {i : Nat} {joint : JointData K}
    (wrote : write gravity updateRate s = some (.ok, s')) (here : s.joints[i]? = some joint)
    (past : 7 ≤ i) (found : joint.simJoint ≠ kNullEntity)
    (alone : ∀ j other, s.joints[j]? = some other → other.simJoint = joint.simJoint → j = i)
    (method : joint.jointControlMethod = EFFORT) :
    (s.ecm joint.simJoint).jointForceCmd = none ∧
      (s'.ecm joint.simJoint).jointForceCmd.isSome = true := by
  obtain ⟨q, jointEfforts, ecm, -, -, commanded, mimicked⟩ := write_ok wrote
  have first := commandJoints_at commanded here found alone
  have outside : ¬ 0 + i < 7 := by omega
  have velocity : EFFORT.has VELOCITY = false := by decide
  have position : EFFORT.has POSITION = false := by decide
  have effort : EFFORT.has EFFORT = true := by decide
  simp only [commandJoint, method, velocity, position, effort, dif_neg outside,
    Bool.false_eq_true, if_false, if_true] at first
  split at first
  · rename_i absent
    refine ⟨absent, ?_⟩
    apply foldlM_invariant (I := fun t => (t joint.simJoint).jointForceCmd.isSome = true) _ _
      mimicked
    · intro t t' mimic _ before looped
      apply foldlM_invariant (I := fun t => (t joint.simJoint).jointForceCmd.isSome = true) _
        before looped
      exact fun t t' interface _ before stepped => mimicInterface_keeps stepped before
    · rw [← Option.some.inj first]
      rfl
  · cases first

/-- Two writes in a row cannot both be defined where a joint past the seventh is driven by
effort. -/
theorem write_write_undefined {s : IgnitionSystem K} {i : Nat} {joint : JointData K}
    (here : s.joints[i]? = some joint) (past : 7 ≤ i) (found : joint.simJoint ≠ kNullEntity)
    (alone : ∀ j other, s.joints[j]? = some other → other.simJoint = joint.simJoint → j = i)
    (method : joint.jointControlMethod = EFFORT) (total : ∀ q, ∃ efforts, gravity q = .ok efforts) :
    runs gravity updateRate s [.write, .write] = none := by
  by_contra defined
  obtain ⟨s₂, ran⟩ := Option.ne_none_iff_exists'.1 defined
  simp only [runs, List.foldlM_cons] at ran
  obtain ⟨s₁, first, ran⟩ := Option.bind_eq_some_iff.1 ran
  obtain ⟨_, second, -⟩ := Option.bind_eq_some_iff.1 ran
  obtain ⟨⟨result, s₁⟩, wrote, rfl⟩ := Option.map_eq_some_iff.1 first
  obtain ⟨⟨result', s₂⟩, wrote', rfl⟩ := Option.map_eq_some_iff.1 second
  obtain rfl := write_succeeds total wrote
  obtain rfl := write_succeeds total wrote'
  have joints : s₁.joints = s.joints := by rw [write_eq wrote]
  -- the second of them finds the component that the first one made
  have present := (write_past wrote here past found alone method).2
  have absent := (write_past wrote' (joints ▸ here) past found (joints ▸ alone) method).1
  rw [absent] at present
  cases present

section Initialised

variable {enableJoints : String → Option Entity} {infos : List ComponentInfo}
  {s t : IgnitionSystem K} {i : Nat} {info : ComponentInfo}
  (setups : s.joints.map JointData.setup = infos.map (ComponentInfo.initialSetup enableJoints))

include setups

/-- With its effort interface, a joint past the seventh is driven by effort from the
beginning. -/
theorem write_write_undefined_of_hasEffort (total : ∀ q, ∃ efforts, gravity q = .ok efforts)
    (entities : ∀ name name' e, enableJoints name = some e → enableJoints name' = some e →
      name = name') (exist : ∀ name, enableJoints name ≠ some kNullEntity)
    (names : (infos.map ComponentInfo.name).Nodup) (listed : infos[i]? = some info)
    (past : 7 ≤ i) (there : (enableJoints info.name).isSome = true)
    (effort : info.hasEffort = true) : runs gravity updateRate s [.write, .write] = none := by
  obtain ⟨e, there⟩ := Option.isSome_iff_exists.1 there
  have found : e ≠ kNullEntity := fun null => exist info.name (null ▸ there)
  obtain ⟨joint, here, setup⟩ := exists_joint setups listed
  have own : joint.simJoint = e :=
    (congrArg Setup.simJoint setup).trans ((initialSetup_simJoint_iff found).2 there)
  have method : joint.jointControlMethod = EFFORT := by
    have method := (congrArg Setup.method setup).trans (initialSetup_method there)
    rwa [effort, if_pos rfl] at method
  refine write_write_undefined here past (own.symm ▸ found) ?_ method total
  intro j other here' shared
  obtain ⟨info', listed', setup'⟩ := exists_info setups here'
  have there' := (initialSetup_simJoint_iff found).1
    ((congrArg Setup.simJoint setup').symm.trans (shared.trans own))
  have same := entities _ _ e there' there
  have bound : j < infos.length := (List.getElem?_eq_some_iff.1 listed').1
  exact (List.getElem?_inj (by simpa using bound) names).1 (by simp [listed, listed', same])

/-- A joint that a run drives by effort has an effort interface, if the controllers ask for
exported interfaces only. -/
theorem hasEffort_of_run {handles : List Handle} {es : List (Event K)} {joint : JointData K}
    (exported : ∀ h ∈ handles, ∃ info, infos[h.joint]? = some info ∧
      h.prefixName = info.exportedName ∧
        ∃ k : Kind, h.interfaceName = k.interface ∧ info.Offers k)
    (apart : ∀ (i j : Nat) info info', infos[i]? = some info → infos[j]? = some info' →
      info.exportedName = info'.name → i = j)
    (ran : runs gravity updateRate s es = some t)
    (asked : ∀ e ∈ es, ∀ name ∈ e.request.start, ∃ h ∈ handles, name = h.name)
    (there : t.joints[i]? = some joint) (found : joint.simJoint ≠ kNullEntity)
    (effort : joint.jointControlMethod.has EFFORT = true) :
    ∃ info, infos[i]? = some info ∧ (enableJoints info.name).isSome = true ∧
      info.hasEffort = true := by
  obtain ⟨joint₀, here, setup'⟩ := runs_joint ran there
  obtain ⟨info, listed, setup⟩ := exists_info setups here
  have entity : joint₀.simJoint = joint.simJoint :=
    ((congrArg Setup.simJoint setup').trans (kept_run es joint₀.setup).2.1).symm
  have known := (initialSetup_simJoint_iff found).1
    ((congrArg Setup.simJoint setup).symm.trans entity)
  refine ⟨info, listed, known ▸ rfl, ?_⟩
  rcases started_of_has ran here there (k := .effort) effort with ⟨e, member, started⟩ | initially
  · -- what was started is an interface of this joint, of this kind
    obtain ⟨h, exports, hit⟩ := asked e member _ started
    obtain ⟨other, place, prefixed, k, kind, interface, offered, same⟩ := exported h exports
    have full : h.name = interfaceName other.exportedName k := by
      rw [Handle.name, prefixed, kind, interfaceName]
    have name : joint₀.name = info.name := (congrArg Setup.name setup).trans (initialSetup_name _ _)
    have named := interfaceName_name (hit.trans full)
    obtain rfl := apart _ _ other info place listed (named.symm.trans name)
    obtain rfl := Option.some.inj (place.symm.trans listed)
    rw [named] at hit
    obtain rfl := interfaceName_kind (hit.trans full)
    exact List.any_eq_true.2 ⟨interface, offered, decide_eq_true same⟩
  · have method := (congrArg Setup.method setup).trans (initialSetup_method known)
    by_contra lacks
    rw [if_neg lacks] at method
    replace initially : joint₀.jointControlMethod.has EFFORT = true := initially
    rw [show joint₀.jointControlMethod = NONE from method, show NONE.has EFFORT = false by decide]
      at initially
    cases initially

end Initialised

/-- **Where every run is defined.**  The simulator first fills what `initSim` has created empty.
If it keeps giving what is read, and controllers ask for exported interfaces only, all runs are
defined exactly if no joint behind the seventh that the simulation has is given an effort
interface. -/
theorem runs_defined_iff [One K] [QuietNaN K] {stod : String → Except Thrown K}
    {enableJoints : String → Option Entity} {infos : List ComponentInfo}
    {ecm : EntityComponentManager K} {s : IgnitionSystem K}
    {fill : EntityComponentManager K → EntityComponentManager K}
    (initialised : (initSim stod gain enableJoints infos ecm).run = some (.ok (true, s)))
    (sound : Sound { s with ecm := fill s.ecm }) (total : ∀ q, ∃ efforts, gravity q = .ok efforts)
    (entities : ∀ name name' e, enableJoints name = some e → enableJoints name' = some e →
      name = name') (exist : ∀ name, enableJoints name ≠ some kNullEntity)
    (names : (infos.map ComponentInfo.name).Nodup)
    (apart : ∀ (i j : Nat) info info', infos[i]? = some info → infos[j]? = some info' →
      info.exportedName = info'.name → i = j) :
    (∀ es : List (Event K), (∀ e ∈ es, e.KeepsReadable ∧ ∀ name ∈ e.request.start,
        ∃ h ∈ s.commandInterfaces, name = h.name) →
          (runs gravity updateRate s (.simulate fill :: es)).isSome = true) ↔
      ∀ (i : Nat) info, infos[i]? = some info → 7 ≤ i → (enableJoints info.name).isSome = true →
        info.hasEffort = false := by
  obtain ⟨setups, exported⟩ := initSim_ok initialised
  have filled : ∀ es, runs gravity updateRate s (.simulate fill :: es) =
      runs gravity updateRate { s with ecm := fill s.ecm } es := fun es => rfl
  simp only [filled]
  replace setups : ({ s with ecm := fill s.ecm } : IgnitionSystem K).joints.map JointData.setup =
      infos.map (ComponentInfo.initialSetup enableJoints) := setups
  generalize ({ s with ecm := fill s.ecm } : IgnitionSystem K) = s₀ at setups sound ⊢
  constructor
  · intro all i info listed past there
    by_contra effort
    have undefined : runs gravity updateRate s₀ [.write, .write] = none :=
      write_write_undefined_of_hasEffort setups total entities exist names listed past there
        (by simpa using effort)
    have defined := all [.write, .write] (by simp [Event.KeepsReadable, Event.request])
    rw [undefined] at defined
    cases defined
  · intro none es admitted
    suffices ∃ t, runs gravity updateRate s₀ es = some t ∧ Sound t by
      obtain ⟨t, ran, -⟩ := this
      rw [ran]
      rfl
    induction es using List.reverseRecOn with
    | nil => exact ⟨s₀, rfl, sound⟩
    | append_singleton es e ih =>
        have before : ∀ e ∈ es, _ := fun e member => admitted e (List.mem_append_left _ member)
        obtain ⟨t, ran, sound'⟩ := ih before
        have within : ∀ i joint, t.joints[i]? = some joint → ¬ Reaches i joint := by
          rintro i joint there ⟨past, found, effort⟩
          obtain ⟨info, listed, known, has⟩ := hasEffort_of_run setups exported apart ran
            (fun e member => (before e member).2) there found effort
          rw [none i info listed past known] at has
          cases has
        obtain ⟨t', stepped, sound''⟩ := sound'.step (admitted e (by simp)).1 within
        refine ⟨t', ?_, sound''⟩
        rw [runs_append, ran]
        simpa [runs] using stepped

end Defined

/-- Seven joints with effort interfaces, and an eighth without one. -/
def describedArm : List ComponentInfo :=
  (["a", "b", "c", "d", "e", "f", "g"].map fun name =>
    ⟨name, [⟨"effort", ""⟩], [], fun _ => none⟩) ++ [⟨"h", [⟨"velocity", ""⟩], [], fun _ => none⟩]

/-- The simulation has the first and the eighth. -/
def firstAndEighth (name : String) : Option Entity :=
  if name = "a" then some 1 else if name = "h" then some 2 else none

theorem firstAndEighth_cases {name : String} {e : Entity} (there : firstAndEighth name = some e) :
    name = "a" ∧ e = 1 ∨ name = "h" ∧ e = 2 := by
  unfold firstAndEighth at there
  split at there
  · exact .inl ⟨‹_›, (Option.some.inj there).symm⟩
  split at there
  · exact .inr ⟨‹_›, (Option.some.inj there).symm⟩
  · cases there

def standing : EntityComponentManager (Double ℚ) :=
  fun _ => { jointType := some .revolute, jointAxis := some ⟨0, 0, 1⟩ }

def resting : EntityComponentManager (Double ℚ) :=
  fun _ => { jointType := some .revolute, jointAxis := some ⟨0, 0, 1⟩, jointPosition := some [0]
             jointVelocity := some [0], jointTransmittedWrench := some ⟨⟨0, 0, 0⟩, ⟨0, 0, 0⟩⟩ }

theorem describedArm_defined : ∃ s,
    (initSim (fun _ => .ok 0) 0 firstAndEighth describedArm standing).run = some (.ok (true, s)) ∧
      (runs (fun q => .ok q) 0 s
        [.simulate fun _ => resting, .write, .read, .write]).isSome = true := by
  have evaluated : ((initSim (fun _ => .ok 0) 0 firstAndEighth describedArm standing).run.map
      fun r => r.toOption.map fun r => (r.1, r.2.entities, r.2.mimicJoints.length)) =
        some (some (true, [1, 0, 0, 0, 0, 0, 0, 2], 0)) := rfl
  obtain ⟨⟨_⟩ | ⟨done, s⟩, initialised, seen⟩ := Option.map_eq_some_iff.1 evaluated
  · cases seen
  simp only [Except.toOption, Option.map_some, Option.some.injEq, Prod.mk.injEq] at seen
  obtain ⟨rfl, entities, mimics⟩ := seen
  have sound : Sound { s with ecm := resting } := by
    refine ⟨?_, ?_, fun e _ _ => ⟨⟨0, [], rfl⟩, ⟨0, [], rfl⟩, _, rfl⟩⟩
    · show 7 ≤ s.entities.length
      rw [entities]
      decide
    · show ∀ mimic ∈ s.mimicJoints, _
      rw [List.length_eq_zero_iff.1 mimics]
      simp
  refine ⟨s, initialised, ?_⟩
  refine (runs_defined_iff initialised sound (fun q => ⟨q, rfl⟩) ?_ ?_ (by decide) ?_).2 ?_ _ ?_
  · intro name name' e first second
    rcases firstAndEighth_cases first with ⟨rfl, rfl⟩ | ⟨rfl, rfl⟩ <;>
      rcases firstAndEighth_cases second with ⟨rfl, same⟩ | ⟨rfl, same⟩ <;>
      first | rfl | cases same
  · intro name null
    rcases firstAndEighth_cases null with ⟨-, zero⟩ | ⟨-, zero⟩ <;> cases zero
  · intro i j info info' listed listed' same
    have plain : describedArm.map ComponentInfo.exportedName =
        describedArm.map ComponentInfo.name := by decide
    have bound : i < describedArm.length := (List.getElem?_eq_some_iff.1 listed).1
    refine (List.getElem?_inj (by simpa using bound)
      (by decide : (describedArm.map ComponentInfo.name).Nodup)).1 ?_
    rw [← plain, List.getElem?_map, listed, plain, List.getElem?_map, listed']
    exact congrArg some same
  · -- only the eighth is behind the seventh
    intro i info listed past _
    obtain ⟨bound, rfl⟩ := List.getElem?_eq_some_iff.1 listed
    have eighth : i = 7 := Nat.le_antisymm (Nat.le_of_lt_succ bound) past
    subst eighth
    rfl
  · simp [Event.KeepsReadable, Event.request]

end FrankaRos.Gazebo
