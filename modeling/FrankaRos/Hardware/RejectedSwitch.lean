/-
# Hardware.RejectedSwitch -- after a switch that claims the elbow alone

`perform_command_mode_switch` returns ERROR when the elbow is claimed without a
Cartesian interface, behind the five branches and without withdrawing the claim.  What
is left is `Orphaned`: an elbow claim, and no Cartesian interface claimed or running.
Nothing but a request that names the elbow or a Cartesian interface changes that
(`Orphaned.serve`), so every other valid request is answered with ERROR as well.
-/
import FrankaRos.Hardware.RejectedPreparation

namespace FrankaRos.Hardware

open FrankaRos.Theory

set_option autoImplicit false

set_option linter.unusedSectionVars false

universe u

/-- A mode switch as the controller manager asks for it, and how the robot answers
the start calls. -/
structure SwitchRequest where
  start : List String
  stop : List String
  outcome : ControlMode → StartOutcome

namespace FrankaHardwareInterface

variable {K : Type u} [MachineArith K]

/-- Prepare the request and, if that is returned OK, perform it. -/
def serve (s : FrankaHardwareInterface K) (q : SwitchRequest) :
    CallResult × FrankaHardwareInterface K :=
  match s.prepareCommandModeSwitch q.start q.stop with
  | (.returned .ok, s) => s.performCommandModeSwitch q.outcome
  | refused => refused

/-- The state after requests served one after the other. -/
def serveAll (s : FrankaHardwareInterface K) (qs : List SwitchRequest) :
    FrankaHardwareInterface K := run (fun s q => (s.serve q).2) s qs

/-- `perform_command_mode_switch` answers the prepared request with ERROR. -/
def Rejects (s : FrankaHardwareInterface K) (q : SwitchRequest) : Prop :=
  (s.prepareCommandModeSwitch q.start q.stop).1 = .returned .ok ∧
    (s.serve q).1 = .returned .error

/-- Complete sets, none of them the elbow's, which the robot starts without fail. -/
structure ValidRequest (s : FrankaHardwareInterface K) (q : SwitchRequest) : Prop where
  short : q.start.length ≠ maxNumberStartInterfaces
  complete : ∀ i, s.CompleteRow q.start q.stop i
  elbow : s.countType .elbow q.start = 0 ∧ s.countType .elbow q.stop = 0
  answered : ∀ m, q.outcome m ≠ .refused

/-- A valid request that starts no Cartesian interface. -/
structure JointRequest (s : FrankaHardwareInterface K) (q : SwitchRequest) : Prop extends
    s.ValidRequest q where
  joint : ∀ c : Cartesian, s.countType (.mode c.mode) q.start = 0

/-- What is promised of a rejected request: it changes no control mode, and later
requests are served as if it had not been made. -/
def LeavesUsable (s : FrankaHardwareInterface K) (q : SwitchRequest) : Prop :=
  ((∀ m, (s.serve q).2.running (.mode m) = s.running (.mode m)) ∧ (s.serve q).2.robot = s.robot) ∧
    ∀ later q', (∀ p ∈ q' :: later, s.ValidRequest p) →
      (((s.serve q).2.serveAll later).serve q').1 = .returned .ok ∧
        (((s.serve q).2.serveAll later).serve q').2.running =
          ((s.serveAll later).serve q').2.running

/-! ## What a request does not touch -/

/-- `f` leaves the exported interfaces alone. -/
def KeepsExported (f : FrankaHardwareInterface K → FrankaHardwareInterface K) : Prop :=
  ∀ s, (f s).exported = s.exported

theorem keepsExported_startElbow : KeepsExported (startElbow (K := K)) := by
  intro s
  unfold startElbow
  split <;> rfl

theorem keepsExported_stopElbow : KeepsExported (stopElbow (K := K)) := by
  intro s
  unfold stopElbow
  split <;> rfl

theorem switchMode_exported {m : ControlMode}
    {f g h : FrankaHardwareInterface K → FrankaHardwareInterface K} (hf : KeepsExported f)
    (hg : KeepsExported g) (hh : KeepsExported h) (outcome : ControlMode → StartOutcome) :
    KeepsExported fun s => (switchMode m f g h outcome s).2 := by
  intro s
  exact switchMode_invariant (I := fun t => t.exported = s.exported) (fun _ same => same)
    (fun _ same => same) (fun t same => (hf t).trans same) (fun _ same => (hg _).trans same)
    (fun _ same => (hh _).trans same) outcome rfl

theorem serve_exported (s : FrankaHardwareInterface K) (q : SwitchRequest) :
    (s.serve q).2.exported = s.exported := by
  have kept : ∀ branch ∈ branches q.outcome, ∀ t : FrankaHardwareInterface K,
      t.exported = s.exported → (branch t).2.exported = s.exported := by
    have plain : ∀ m, KeepsExported (zeroCommands (K := K) m) := fun _ _ => rfl
    have same : KeepsExported (id : FrankaHardwareInterface K → _) := fun _ => rfl
    have position : KeepsExported (setFirstUpdate (K := K) (.mode .jointPosition) true) :=
      fun _ => rfl
    have pose : KeepsExported (startPose (K := K)) := fun s => keepsExported_startElbow s
    intro branch member t exported
    simp only [branches, List.mem_cons, List.not_mem_nil, or_false] at member
    rcases member with rfl | rfl | rfl | rfl | rfl
    · exact (switchMode_exported (plain _) same same q.outcome t).trans exported
    · exact (switchMode_exported (plain _) same same q.outcome t).trans exported
    · exact (switchMode_exported same position same q.outcome t).trans exported
    · exact (switchMode_exported (plain _) keepsExported_startElbow keepsExported_stopElbow
        q.outcome t).trans exported
    · exact (switchMode_exported same pose keepsExported_stopElbow q.outcome t).trans exported
  obtain ⟨claims, frame⟩ := prepare_frame q.start q.stop s
  unfold serve
  split
  · rename_i s₁ prepared
    rw [prepared] at frame
    obtain rfl : s₁ = { s with claimed := claims } := frame
    exact perform_invariant kept rfl
  · rw [frame]

theorem countType_congr {s t : FrankaHardwareInterface K} (same : t.exported = s.exported)
    (i : CommandInterface) (names : List String) : t.countType i names = s.countType i names := by
  simp only [countType, containsInterfaceType, same]

/-- Requests are judged by the exported interfaces alone. -/
theorem JointRequest.congr {s t : FrankaHardwareInterface K} {q : SwitchRequest}
    (request : s.JointRequest q) (same : t.exported = s.exported) : t.JointRequest q := by
  have counts := countType_congr same
  refine ⟨⟨request.short, fun i => ?_, ?_, request.answered⟩, fun c => ?_⟩
  · simp only [CompleteRow, counts]
    exact request.complete i
  · simp only [counts]
    exact request.elbow
  · rw [counts]
    exact request.joint c

theorem prepare_of_complete {s : FrankaHardwareInterface K} {start stop : List String}
    (short : start.length ≠ maxNumberStartInterfaces)
    (complete : ∀ i, s.CompleteRow start stop i) :
    (s.prepareCommandModeSwitch start stop).1 = .returned .ok := by
  rw [prepareCommandModeSwitch, if_neg short]
  exact prepareLoop_complete fun i _ => complete i

/-! ## An orphaned elbow claim -/

/-- The elbow is claimed, and no Cartesian interface is claimed or running. -/
structure Orphaned (s : FrankaHardwareInterface K) : Prop where
  elbow : s.claimed .elbow = true
  cartesian : ∀ c : Cartesian, s.running (.mode c.mode) = false ∧ s.claimed (.mode c.mode) = false

/-- A branch with nothing to do. -/
theorem switchMode_idle {m : ControlMode} {f g h : FrankaHardwareInterface K → _}
    {outcome : ControlMode → StartOutcome} {s : FrankaHardwareInterface K}
    (idle : s.running (.mode m) = false ∧ s.claimed (.mode m) = false) :
    switchMode (K := K) m f g h outcome s = (true, s) := by
  simp [switchMode, idle.1, idle.2]

/-- A start call that the robot does not refuse does not throw. -/
theorem switchMode_answered {m : ControlMode} {f g h : FrankaHardwareInterface K → _}
    {outcome : ControlMode → StartOutcome} (answered : outcome m ≠ .refused)
    (s : FrankaHardwareInterface K) : (switchMode (K := K) m f g h outcome s).1 = true := by
  unfold switchMode
  split
  · cases answer : outcome m with
    | refused => exact absurd answer answered
    | started | recovered => simp [Robot.initializeInterface]
  · split <;> rfl

theorem cascade_answered {steps : List (Branch K)} (answered : ∀ branch ∈ steps, ∀ s, (branch s).1 = true)
    (s : FrankaHardwareInterface K) : (cascade steps s).1 = true := by
  induction steps generalizing s with
  | nil => rfl
  | cons branch rest ih =>
      unfold cascade
      split
      · exact ih (fun b member => answered b (List.mem_cons_of_mem branch member)) _
      · rename_i thrown
        have first := answered branch List.mem_cons_self s
        rcases ran : branch s with ⟨done, s'⟩
        rw [ran] at first
        subst first
        exact absurd ran (thrown s')

/-- The joint branches leave an orphaned claim as it is, and the Cartesian branches
have nothing to do. -/
theorem Orphaned.cascade {s s' : FrankaHardwareInterface K} (orphaned : s.Orphaned)
    {outcome : ControlMode → StartOutcome}
    (done : FrankaHardwareInterface.cascade (branches outcome) s = (true, s')) : s'.Orphaned := by
  obtain ⟨s₁, joints, rest⟩ := cascade_append (show FrankaHardwareInterface.cascade
    (jointBranches outcome ++ [switchCartesianVelocity outcome, switchCartesianPose outcome]) s =
      (true, s') from done)
  have elbow := jointBranches_flags .elbow (by decide) joints
  have velocity := jointBranches_flags (.mode .cartesianVelocity) (by decide) joints
  have pose := jointBranches_flags (.mode .cartesianPose) (by decide) joints
  have still : s₁.Orphaned := by
    refine ⟨elbow.2.trans orphaned.elbow, fun c => ?_⟩
    cases c with
    | velocity =>
        exact ⟨velocity.1.trans (orphaned.cartesian .velocity).1,
          velocity.2.trans (orphaned.cartesian .velocity).2⟩
    | pose =>
        exact ⟨pose.1.trans (orphaned.cartesian .pose).1,
          pose.2.trans (orphaned.cartesian .pose).2⟩
  have idle : FrankaHardwareInterface.cascade
      [switchCartesianVelocity outcome, switchCartesianPose outcome] s₁ = (true, s₁) := by
    have velocity : switchCartesianVelocity outcome s₁ = (true, s₁) :=
      switchMode_idle (still.cartesian .velocity)
    have pose : switchCartesianPose outcome s₁ = (true, s₁) :=
      switchMode_idle (still.cartesian .pose)
    simp only [FrankaHardwareInterface.cascade, velocity, pose]
  rw [idle] at rest
  obtain ⟨-, rfl⟩ := Prod.mk.inj rest
  exact still

theorem Orphaned.perform {s : FrankaHardwareInterface K} (orphaned : s.Orphaned)
    {outcome : ControlMode → StartOutcome} (answered : ∀ m, outcome m ≠ .refused) :
    (s.performCommandModeSwitch outcome).1 = .returned .error ∧
      (s.performCommandModeSwitch outcome).2.Orphaned := by
  have completes : (FrankaHardwareInterface.cascade (branches outcome) s).1 = true := by
    apply cascade_answered
    intro branch member t
    simp only [branches, List.mem_cons, List.not_mem_nil, or_false] at member
    rcases member with rfl | rfl | rfl | rfl | rfl
    all_goals exact switchMode_answered (answered _) t
  rcases ran : FrankaHardwareInterface.cascade (branches outcome) s with ⟨done, s'⟩
  rw [ran] at completes
  subst completes
  have still := orphaned.cascade ran
  have velocity : s'.claimed (.mode .cartesianVelocity) = false := (still.cartesian .velocity).2
  have pose : s'.claimed (.mode .cartesianPose) = false := (still.cartesian .pose).2
  unfold performCommandModeSwitch
  rw [ran]
  simp only [still.elbow, velocity, pose, Bool.or_self, and_self, if_true]
  exact ⟨trivial, still⟩

/-- **An orphaned claim stays.**  Requests that name neither the elbow nor a Cartesian
start are all rejected. -/
theorem Orphaned.serve {s : FrankaHardwareInterface K} (orphaned : s.Orphaned) {q : SwitchRequest}
    (request : s.JointRequest q) :
    (s.serve q).1 = .returned .error ∧ (s.serve q).2.Orphaned := by
  have prepared := prepare_of_complete request.short request.complete
  have claims := claimed_prepare prepared
  obtain ⟨flags, frame⟩ := prepare_frame q.start q.stop s
  rcases ran : s.prepareCommandModeSwitch q.start q.stop with ⟨result, s₁⟩
  rw [ran] at prepared claims frame
  obtain rfl : result = .returned .ok := prepared
  replace frame : s₁ = { s with claimed := flags } := frame
  have still : s₁.Orphaned := by
    constructor
    · rw [claims .elbow]
      have empty : (0 : Nat) ≠ CommandInterface.elbow.size := by decide
      simp [requested, request.elbow.1, request.elbow.2, empty, orphaned.elbow]
    · intro c
      have running : s₁.running = s.running := by rw [frame]
      have positive := CommandInterface.size_ne_zero (.mode c.mode)
      rw [running, claims (.mode c.mode)]
      simp [requested, request.joint c, positive.symm, orphaned.cartesian c]
  rw [FrankaHardwareInterface.serve, ran]
  exact still.perform request.answered

theorem Orphaned.serveAll {s : FrankaHardwareInterface K} (orphaned : s.Orphaned)
    {qs : List SwitchRequest} (requests : ∀ q ∈ qs, s.JointRequest q) :
    (s.serveAll qs).Orphaned ∧ (s.serveAll qs).exported = s.exported :=
  run_invariant (fun s q => (FrankaHardwareInterface.serve s q).2)
    (I := fun t => t.Orphaned ∧ t.exported = s.exported) (A := s.JointRequest)
    (fun _ q request ⟨orphaned, same⟩ =>
      ⟨(orphaned.serve (request.congr same)).2, (serve_exported _ q).trans same⟩)
    requests ⟨orphaned, rfl⟩

/-- A rejected request leaves its elbow claim behind. -/
theorem Rejects.orphaned {s : FrankaHardwareInterface K} {q : SwitchRequest}
    (rejects : s.Rejects q) : (s.serve q).2.Orphaned := by
  obtain ⟨prepared, rejected⟩ := rejects
  rcases ran : s.prepareCommandModeSwitch q.start q.stop with ⟨result, s₁⟩
  rw [ran] at prepared
  obtain rfl : result = .returned .ok := prepared
  rw [FrankaHardwareInterface.serve, ran] at rejected ⊢
  simp only at rejected ⊢
  obtain ⟨session, claims⟩ := session_cascade (walks_branches q.outcome)
    (cascade_of_returned rejected)
  generalize after : (s₁.performCommandModeSwitch q.outcome).2 = s₂ at session claims ⊢
  have alone : s₂.claimed .elbow = true ∧ (s₂.claimed (.mode .cartesianVelocity) ||
      s₂.claimed (.mode .cartesianPose)) = false := by
    subst after
    unfold performCommandModeSwitch at rejected ⊢
    split at rejected
    · cases rejected
    · split at rejected
      · rename_i guard
        rw [if_pos guard]
        exact guard
      · cases rejected
  obtain ⟨elbow, cartesian⟩ := alone
  rw [Bool.or_eq_false_iff] at cartesian
  -- behind the branches every control mode runs as it is claimed
  have running : ∀ m, s₂.running (.mode m) = s₂.claimed (.mode m) := by
    intro m
    have walked := Session.switchAll_running s₁.claims s₁.session controlModes m
    rw [← session, if_pos (mem_controlModes m), ← claims] at walked
    exact walked
  refine ⟨elbow, fun c => ?_⟩
  cases c with
  | velocity => exact ⟨(running _).trans cartesian.1, cartesian.1⟩
  | pose => exact ⟨(running _).trans cartesian.2, cartesian.2⟩

/-- **A rejected request blocks the interface.**  No rejected request leaves it usable:
behind one, however many requests come in between, every valid request that names
neither the elbow nor a Cartesian start is rejected too. -/
theorem not_usable_after_rejection {s : FrankaHardwareInterface K} {q : SwitchRequest}
    (rejects : s.Rejects q) :
    ¬ s.LeavesUsable q ∧
      ∀ later q', (∀ p ∈ q' :: later, s.JointRequest p) →
        (((s.serve q).2.serveAll later).serve q').1 = .returned .error := by
  have orphaned := rejects.orphaned
  have blocked : ∀ later q', (∀ p ∈ q' :: later, s.JointRequest p) →
      (((s.serve q).2.serveAll later).serve q').1 = .returned .error := by
    intro later q' requests
    have same := serve_exported s q
    obtain ⟨still, kept⟩ := orphaned.serveAll fun p member =>
      (requests p (List.mem_cons_of_mem q' member)).congr same
    exact (still.serve ((requests q' List.mem_cons_self).congr (kept.trans same))).1
  refine ⟨?_, blocked⟩
  rintro ⟨-, usable⟩
  -- a switch that neither starts nor stops anything is enough
  have empty : s.JointRequest ⟨[], [], fun _ => .started⟩ :=
    ⟨⟨by decide, fun _ => ⟨.inr rfl, .inr rfl⟩, ⟨rfl, rfl⟩, fun _ => nofun⟩, fun _ => rfl⟩
  have only : ∀ p ∈ [(⟨[], [], fun _ => .started⟩ : SwitchRequest)], s.JointRequest p := by
    intro p member
    rwa [List.mem_singleton.1 member]
  have ok := (usable [] ⟨[], [], fun _ => .started⟩ fun p member =>
    (only p member).toValidRequest).1
  rw [blocked [] _ only] at ok
  cases ok

/-! ## On a concrete robot -/

def elbowAlone : SwitchRequest := ⟨elbowInterfaces, [], fun _ => .started⟩

def effortAlone : SwitchRequest := ⟨jointInterfaces "effort", [], fun _ => .started⟩

def exportedElbow : List String := jointInterfaces "effort" ++ elbowInterfaces

theorem not_usable_after_elbowAlone :
    ((constructed (K := ℚ) exportedElbow).serve elbowAlone).1 = .returned .error ∧
      ¬ (constructed (K := ℚ) exportedElbow).LeavesUsable elbowAlone :=
  ⟨by decide, (not_usable_after_rejection ⟨by decide, by decide⟩).1⟩

/-- Effort control can be started before the elbow is claimed alone, and no longer
afterwards. -/
theorem elbowAlone_blocks_effort :
    let s : FrankaHardwareInterface ℚ := constructed exportedElbow
    s.Rejects elbowAlone ∧ (s.serve effortAlone).1 = .returned .ok ∧
      ((s.serve elbowAlone).2.serve effortAlone).1 = .returned .error ∧
      ¬ s.LeavesUsable elbowAlone := by
  refine ⟨⟨by decide, by decide⟩, by decide, by decide, fun ⟨_, usable⟩ => ?_⟩
  have valid : (constructed (K := ℚ) exportedElbow).ValidRequest effortAlone := by
    refine ⟨by decide, fun i => ?_, by decide, fun _ => nofun⟩
    rcases i with m | _
    · cases m <;> decide
    · decide
  have ok := (usable [] effortAlone fun p member => by rwa [List.mem_singleton.1 member]).1
  exact absurd ok (by decide)

end FrankaHardwareInterface

end FrankaRos.Hardware
