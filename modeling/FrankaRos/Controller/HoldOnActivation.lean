/-
# Controller.HoldOnActivation -- the reference before the first phase

While the mode is `NONE`, `q_des_` is written in one place only, the warm-up
branch, which holds the pose captured in the first cycle that reads its inputs.
Without a warm-up the reference is still what the configuration or the last
activation left in it: the cycle captures the measured pose all the same, but
nothing copies it into `q_des_`.

`Holding` is this as an invariant of an activation, relating the state to the
cycles received so far; `holdOnActivation_iff` reads off when the reference is
the pose measured in the first update.
-/
import FrankaRos.Controller.Course
import FrankaRos.Controller.PhaseOrder

namespace FrankaRos.Controller

open FrankaRos.Theory

set_option autoImplicit false

set_option linter.unusedSectionVars false

namespace MoveCatersianImpWithGripper

variable {K : Type} [MachineArith K]

/-! ## The cycles of a run -/

/-- The cycle an event runs. -/
def Event.cycle : Event K → Option (Cycle K)
  | .update given => some given
  | _ => .none

/-- The first update of a run. -/
def firstCycle (es : List (Event K)) : Option (Cycle K) := (es.filterMap Event.cycle).head?

/-- The first update that receives a robot state message. -/
def firstMessage (es : List (Event K)) : Option (Cycle K) :=
  (es.filterMap Event.cycle).find? fun given => given.robotState.isSome

/-- The joint positions measured by the first update of a run. -/
def firstMeasured : MoveCatersianImpWithGripper K → List (Event K) → Option (Vector7d K)
  | _, [] => .none
  | s, e :: es =>
      match e with
      | .update _ => some (s.step e).measured.q
      | _ => firstMeasured (s.step e) es

/-! ## The invariant -/

/-- The reference while the mode is `NONE`: the captured pose if there is a
warm-up to capture it for, else what the activation started with. -/
def reference (t : MoveCatersianImpWithGripper K) : Option (Cycle K) → Vector7d K
  | some given => if 0 < t.params.warmupSeconds then t.positions given else t.refs.qDes
  | .none => t.refs.qDes

/-- What an activation that started in `t` comes to, with the cycle that captured
the warm-up pose. -/
structure Holding (t : MoveCatersianImpWithGripper K) (captured : Option (Cycle K))
    (s : MoveCatersianImpWithGripper K) : Prop where
  params : s.params = t.params
  stateMap : s.interfaces.stateMap = t.interfaces.stateMap
  inited : s.warmup.inited = captured.isSome
  qHold : ∀ given, captured = some given → s.warmup.qHold = t.positions given
  qDes : s.task.lastCmd = .none → s.refs.qDes = t.reference captured

theorem positions_congr {s t : MoveCatersianImpWithGripper K}
    (mapped : t.interfaces.stateMap.isSome = true)
    (same : s.interfaces.stateMap = t.interfaces.stateMap) (given : Cycle K) :
    s.positions given = t.positions given := by
  obtain ⟨map, known⟩ := Option.isSome_iff_exists.1 mapped
  rw [known] at same
  simp [positions, readState, same, known]

theorem Holding.quiet {t s s' : MoveCatersianImpWithGripper K} {captured : Option (Cycle K)}
    (holding : Holding t captured s) (quiet : Quiet s s') : Holding t captured s' where
  params := quiet.params.trans holding.params
  stateMap := by rw [quiet.interfaces, holding.stateMap]
  inited := by rw [quiet.warmup, holding.inited]
  qHold given eq := by rw [quiet.warmup, holding.qHold given eq]
  qDes mode := by
    rw [quiet.lastCmd] at mode
    rw [quiet.refs, holding.qDes mode]

/-- The capture of a cycle that has read its inputs. -/
theorem Holding.capture {t s : MoveCatersianImpWithGripper K} {captured : Option (Cycle K)}
    (holding : Holding t captured s) (mapped : t.interfaces.stateMap.isSome = true)
    {given : Cycle K} {c : Counters K} {i : Interfaces K} {m : Measured K} {w : WrenchWindow K}
    (reads : Reads given s i m) {s₁ : MoveCatersianImpWithGripper K}
    (prepared : s₁ = (s.reading c i m w).captureWarmup) :
    ∃ given', captured.or (some given) = some given' ∧ s₁.warmup.inited = true ∧
      s₁.warmup.qHold = t.positions given' ∧ (captured = .none → s₁.warmup.elapsed = 0) := by
  subst prepared
  cases captured with
  | none =>
      have fresh : (s.reading c i m w).warmup.inited = false := by
        rw [reading, gated_warmup, holding.inited]
        rfl
      refine ⟨given, rfl, ?_⟩
      rw [captureWarmup, if_pos fresh]
      refine ⟨rfl, ?_, fun _ => rfl⟩
      rw [← holding.stateMap] at mapped
      exact ((reads mapped).2).trans (positions_congr (holding.stateMap ▸ mapped) holding.stateMap _)
  | some given' =>
      have done : (s.reading c i m w).warmup.inited = true := by
        rw [reading, gated_warmup, holding.inited]
        rfl
      refine ⟨given', rfl, ?_⟩
      rw [captureWarmup, if_neg (by rw [done]; decide), reading, gated_warmup]
      exact ⟨holding.inited, holding.qHold given' rfl, fun none => by cases none⟩

/-- Behind a gate that keeps `NONE`, the references are what they were. -/
theorem gated_of_none {s : MoveCatersianImpWithGripper K} (mode : s.gated.task.lastCmd = .none) :
    s.gated = s := by
  apply gated_of_not_advances
  intro advances
  apply TaskCmd.next_ne_none s.task.lastCmd
  rw [gated_of_advances advances] at mode
  rw [advances.1, ← mode]

theorem phase_of_none {s : MoveCatersianImpWithGripper K} (mode : s.task.lastCmd = .none)
    (given : Cycle K) : s.phase given = (true, s) := by
  rw [phase, mode]

/-- The reference that a capture leaves to a cycle past the warm-up. -/
theorem Holding.past {t s : MoveCatersianImpWithGripper K} {captured : Option (Cycle K)}
    (holding : Holding t captured s) {given given' : Cycle K}
    (first : captured.or (some given) = some given') {s₁ : MoveCatersianImpWithGripper K}
    (params : s₁.params = t.params) (elapsed : captured = .none → s₁.warmup.elapsed = 0)
    (past : ¬ s₁.Warming) (mode : s.task.lastCmd = .none) :
    s.refs.qDes = t.reference (some given') := by
  rw [holding.qDes mode]
  cases captured with
  | none =>
      have off : ¬ 0 < t.params.warmupSeconds := fun on => past <| by
        rw [Warming, params, elapsed rfl]
        exact ⟨on, on⟩
      simp [reference, off]
  | some earlier =>
      obtain rfl := Option.some.inj first
      rfl

/-- What a cycle past the warm-up may write. -/
theorem Holding.behind {t s : MoveCatersianImpWithGripper K} {captured : Option (Cycle K)}
    (holding : Holding t captured s) (mapped : t.interfaces.stateMap.isSome = true)
    {given : Cycle K} {c : Counters K} {i : Interfaces K} {m : Measured K} {w : WrenchWindow K}
    (reads : Reads given s i m) {s₁ : MoveCatersianImpWithGripper K}
    (prepared : s₁ = (s.reading c i m w).captureWarmup) (past : ¬ s₁.Warming)
    {refs : Refs K} {task : Task K} {gripper : Gripper} (lastCmd : task.lastCmd = s₁.task.lastCmd)
    (still : s₁.task.lastCmd = .none → refs = s₁.refs) :
    Holding t (captured.or (some given))
      { s₁ with refs := refs, task := task, gripper := gripper } := by
  obtain ⟨given', first, inited, qHold, elapsed⟩ := holding.capture mapped reads prepared
  obtain ⟨warmup, captures⟩ := captureWarmup_frame (s.reading c i m w)
  have params : s₁.params = t.params := by
    rw [prepared, captures, ← holding.params]
    exact gated_params s
  have known : s₁.interfaces.stateMap = t.interfaces.stateMap := by
    rw [prepared, captureWarmup_interfaces]
    exact (reads (holding.stateMap ▸ mapped)).1.trans holding.stateMap
  rw [first]
  refine ⟨params, known, inited, fun given'' same => ?_, fun mode => ?_⟩
  · rw [← Option.some.inj same]
    exact qHold
  · have none : s₁.task.lastCmd = .none := lastCmd.symm.trans mode
    have first_refs := still none
    rw [prepared, captures] at none first_refs
    have same := gated_of_none (s := s) none
    show refs.qDes = _
    rw [first_refs]
    show s.gated.refs.qDes = _
    rw [same]
    apply holding.past first params elapsed past
    rw [← same]
    exact none

theorem Holding.phase {t s : MoveCatersianImpWithGripper K} {captured : Option (Cycle K)}
    (holding : Holding t captured s) (mapped : t.interfaces.stateMap.isSome = true)
    {given : Cycle K} {c : Counters K} {i : Interfaces K} {m : Measured K} {w : WrenchWindow K}
    (reads : Reads given s i m) {s₁ s₂ : MoveCatersianImpWithGripper K} {done : Bool}
    (prepared : s₁ = (s.reading c i m w).captureWarmup) (past : ¬ s₁.Warming)
    (ran : s₁.phase given = (done, s₂)) : Holding t (captured.or (some given)) s₂ := by
  have kept := kept_phase given s₁
  obtain ⟨refs, task, gripper, frame⟩ := phase_frame given s₁
  rw [ran] at kept frame
  obtain rfl := frame
  apply holding.behind mapped reads prepared past kept.lastCmd
  intro none
  rw [phase_of_none none] at ran
  exact (congrArg (fun out => out.2.refs) ran).symm

theorem Holding.update {t s : MoveCatersianImpWithGripper K} {captured : Option (Cycle K)}
    (holding : Holding t captured s) (mapped : t.interfaces.stateMap.isSome = true)
    (given : Cycle K) :
    Holding t (captured.or (if given.robotState.isSome then some given else .none))
      (s.update given).2 := by
  have known : s.interfaces.stateMap.isSome = true := holding.stateMap ▸ mapped
  rcases ran : s.update given with ⟨r, s'⟩
  cases course ran with
  | unread c i m w stale reads =>
      have silent : given.robotState = .none := stale.resolve_right fun missing => by
        rw [missing] at known
        cases known
      have same : captured.or (if given.robotState.isSome then some given else .none) = captured := by
        simp [silent]
      have warmup : (s.reading c i m w).warmup = s.warmup := gated_warmup s
      rw [same]
      refine ⟨(gated_params s).trans holding.params, (reads known).1.trans holding.stateMap, ?_, ?_,
        fun mode => ?_⟩
      · rw [warmup, holding.inited]
      · rw [warmup]
        exact holding.qHold
      · have still := gated_of_none (s := s) mode
        rw [reading, still] at mode ⊢
        exact holding.qDes mode
  | warmup _ c i m w i' asked move torque steps prepared message warming held reads same =>
      obtain ⟨given', first, inited, qHold, -⟩ := holding.capture mapped reads prepared
      obtain ⟨warmup, captures⟩ := captureWarmup_frame (s.reading c i m w)
      rename_i s₁
      have params : s₁.params = t.params := by
        rw [prepared, captures, ← holding.params]
        exact gated_params s
      rw [if_pos message, first]
      refine ⟨params, same.trans ((reads known).1.trans holding.stateMap), inited,
        fun given'' eq => ?_, fun _ => ?_⟩
      · rw [← Option.some.inj eq]
        exact qHold
      · rw [reference, if_pos (params ▸ warming.1)]
        exact qHold
  | unmapped c i m w message past reads =>
      rw [if_pos message]
      exact holding.behind mapped reads rfl past rfl fun _ => rfl
  | thrown c i m w prepared message past run reads =>
      rw [if_pos message]
      exact holding.phase mapped reads prepared past run
  | control c i m w i' torque steps prepared message past run reads same =>
      rw [if_pos message]
      have ran := holding.phase mapped reads prepared past run
      exact ⟨ran.params, same.trans ((reads known).1.trans holding.stateMap), ran.inited, ran.qHold,
        ran.qDes⟩

/-! ## Runs of one activation -/

theorem firstMessage_cons (e : Event K) (es : List (Event K)) :
    firstMessage (e :: es) = (firstMessage [e]).or (firstMessage es) := by
  unfold firstMessage
  rw [← List.singleton_append, List.filterMap_append, List.find?_append]

theorem holding_step {t s : MoveCatersianImpWithGripper K} {captured : Option (Cycle K)}
    (holding : Holding t captured s) (mapped : t.interfaces.stateMap.isSome = true) {e : Event K}
    (active : s.services.lifecycle = .active) (stays : e.KeepsActive) :
    Holding t (captured.or (firstMessage [e])) (s.step e) := by
  rcases step_active active stays with ⟨given, rfl, eq⟩ | ⟨other, quiet⟩
  · have one : firstMessage [.update given] =
        if given.robotState.isSome then some given else .none := by
      cases message : given.robotState <;> simp [firstMessage, Event.cycle, message]
    rw [eq, one]
    exact holding.update mapped given
  · have silent : firstMessage [e] = .none := by
      cases e with
      | update given => exact absurd rfl (other given)
      | _ => rfl
    rw [silent, Option.or_none]
    exact holding.quiet quiet

theorem holding_run {t s : MoveCatersianImpWithGripper K} {captured : Option (Cycle K)}
    (holding : Holding t captured s) (mapped : t.interfaces.stateMap.isSome = true)
    {es : List (Event K)} (active : s.services.lifecycle = .active)
    (stays : ∀ e ∈ es, e.KeepsActive) :
    Holding t (captured.or (firstMessage es)) (run step s es) := by
  induction es generalizing s captured with
  | nil =>
      rw [show firstMessage ([] : List (Event K)) = .none from rfl, Option.or_none]
      exact holding
  | cons e es ih =>
      have stays_e := stays e List.mem_cons_self
      rw [firstMessage_cons, ← Option.or_assoc]
      exact ih (holding_step holding mapped active stays_e) (active_step active stays_e)
        fun e' member => stays e' (List.mem_cons_of_mem e member)

theorem measured_update {s : MoveCatersianImpWithGripper K}
    (known : s.interfaces.stateMap.isSome = true) (given : Cycle K) :
    (s.update given).2.measured.q = s.positions given := by
  have captured : ∀ c i m w, (s.reading c i m w).captureWarmup.measured = m := by
    intro c i m w
    obtain ⟨warmup, captures⟩ := captureWarmup_frame (s.reading c i m w)
    rw [captures]
    rfl
  rcases ran : s.update given with ⟨r, s'⟩
  cases course ran with
  | unread c i m w stale reads => exact (reads known).2
  | warmup _ c i m w i' asked move torque steps prepared message warming held reads =>
      subst prepared
      exact (congrArg Measured.q (captured c i m w)).trans (reads known).2
  | unmapped c i m w message past reads =>
      exact (congrArg Measured.q (captured c i m w)).trans (reads known).2
  | thrown c i m w prepared message past run reads =>
      subst prepared
      obtain ⟨refs, task, gripper, frame⟩ := phase_frame given (s.reading c i m w).captureWarmup
      rw [run] at frame
      obtain rfl := frame
      exact (congrArg Measured.q (captured c i m w)).trans (reads known).2
  | control c i m w i' torque steps prepared message past run reads =>
      subst prepared
      obtain ⟨refs, task, gripper, frame⟩ := phase_frame given (s.reading c i m w).captureWarmup
      rw [run] at frame
      obtain rfl := frame
      exact (congrArg Measured.q (captured c i m w)).trans (reads known).2

theorem firstMeasured_eq {t s : MoveCatersianImpWithGripper K}
    (mapped : t.interfaces.stateMap.isSome = true)
    (same : s.interfaces.stateMap = t.interfaces.stateMap) {es : List (Event K)}
    (active : s.services.lifecycle = .active) (stays : ∀ e ∈ es, e.KeepsActive) :
    firstMeasured s es = (firstCycle es).map t.positions := by
  induction es generalizing s with
  | nil => rfl
  | cons e es ih =>
      have stays_e := stays e List.mem_cons_self
      rcases step_active active stays_e with ⟨given, rfl, eq⟩ | ⟨other, quiet⟩
      · show some (s.step (.update given)).measured.q = some (t.positions given)
        rw [eq, measured_update (same ▸ mapped), positions_congr mapped same]
      · have rest := ih (by rw [quiet.interfaces, same]) (active_step active stays_e)
          fun e' member => stays e' (List.mem_cons_of_mem e member)
        cases e with
        | update given => exact absurd rfl (other given)
        | _ => exact rest

theorem message_of_ok {s : MoveCatersianImpWithGripper K} {given : Cycle K}
    (ok : (s.update given).1 = .ok) : given.robotState.isSome = true := by
  rcases ran : s.update given with ⟨r, s'⟩
  rw [ran] at ok
  cases course ran with
  | unread => cases ok
  | _ => assumption

/-- The reference is the pose measured in the first update of the activation. -/
def HoldsPose (t : MoveCatersianImpWithGripper K) (es : List (Event K)) : Prop :=
  firstMeasured t es = some (run step t es).refs.qDes

/-- **Hold on activation, exactly.**  In a successful update of an activation that
is still in `NONE`, the reference is the pose measured in the first update if and
only if the warm-up is on and the pose is still that one in the first update with
a robot state message, or the warm-up is off and the reference the activation
started with happens to be that pose. -/
theorem holdsPose_iff {s : MoveCatersianImpWithGripper K} {a : Activation K}
    (inactive : s.services.lifecycle = .inactive) (success : (s.onActivate a).1 = .success)
    {es : List (Event K)} (stays : ∀ e ∈ es, e.KeepsActive) {given : Cycle K}
    (ok : ((run step (s.step (.activate a)) es).update given).1 = .ok)
    (mode : ((run step (s.step (.activate a)) es).update given).2.task.lastCmd = .none) :
    let t := s.step (.activate a)
    let es := es ++ [.update given]
    HoldsPose t es ↔
      if 0 < t.params.warmupSeconds then
        (firstMessage es).map t.positions = (firstCycle es).map t.positions
      else (firstCycle es).map t.positions = some t.refs.qDes := by
  intro t es'
  have fresh := justActivated inactive success
  have stays' : ∀ e ∈ es', e.KeepsActive := by
    intro e member
    rcases List.mem_append.1 member with old | new
    · exact stays e old
    · rw [List.mem_singleton.1 new]
      exact trivial
  have start : Holding t .none t :=
    ⟨rfl, rfl, fresh.inited, fun _ none => (by cases none), fun _ => rfl⟩
  have holding := holding_run start fresh.mapped fresh.lifecycle stays'
  have ran : run step t es' = ((run step t es).update given).2 := by
    rw [run_append]
    exact if_pos (active_run fresh.lifecycle stays)
  have message : ∃ given', firstMessage es' = some given' := by
    refine Option.isSome_iff_exists.1 (List.find?_isSome.2 ⟨given, ?_, message_of_ok ok⟩)
    simp [es', Event.cycle]
  obtain ⟨given', first⟩ := message
  have reference := holding.qDes (by rw [ran]; exact mode)
  rw [HoldsPose, firstMeasured_eq fresh.mapped rfl fresh.lifecycle stays', reference, first,
    Option.none_or, MoveCatersianImpWithGripper.reference]
  split
  · exact eq_comm
  · exact Iff.rfl

/-- The concrete robot away from its `q_goal`, without a warm-up. -/
theorem not_holdsPose_fr3 :
    let t := (fr3Inactive fr3Scalars).step (.activate (fr3Activation (1 / 2)))
    let cycle := fr3Cycle 1 (1 / 2) 1
    (t.services.lifecycle = .active ∧ (t.update cycle).1 = .ok ∧
      (t.update cycle).2.task.lastCmd = .none) ∧ ¬ HoldsPose t [.update cycle] := by
  refine ⟨by decide +kernel, fun holds => ?_⟩
  exact absurd (congrFun (Option.some.inj holds) 0) (by decide +kernel)

/-- The same robot with a warm-up of one second holds its pose. -/
theorem holdsPose_fr3 :
    HoldsPose ((fr3Inactive { fr3Scalars with warmupSeconds := Double.lit 1 }).step
      (.activate (fr3Activation (1 / 2)))) ([] ++ [.update (fr3Cycle 1 (1 / 2) 1)]) :=
  (holdsPose_iff (by decide +kernel) (by decide +kernel) (by simp) (by decide +kernel)
    (by decide +kernel)).2 (by rw [if_pos (by decide +kernel)]; rfl)

end MoveCatersianImpWithGripper

end FrankaRos.Controller
