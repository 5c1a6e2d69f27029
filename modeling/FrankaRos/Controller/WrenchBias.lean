/-
# Controller.WrenchBias -- the mean of the last wrenches

Every update that reads its inputs writes a wrench to a ring of `kBiasWindowSize` samples,
and `computeWrenchExtOBias` averages the part of the ring in use.  `on_configure` clears the
samples, but neither the write index nor the flag that the ring has wrapped, so the zeros
it writes count as samples.

`Sampling` observes a run: the samples since the last configuration, and how many there had
been before it.  What the ring holds are the last of the samples behind as many zeros
(`HoldsSamples`), and `bias_iff` says when that makes no difference to the mean.  The arithmetic
is exact; a sample need not be finite.
-/
import FrankaRos.Controller.Course
import FrankaRos.Controller.Lifecycle
import FrankaRos.Theory.RingBuffer

namespace FrankaRos.Controller

open FrankaRos.Theory

set_option autoImplicit false

set_option linter.unusedSectionVars false

/-! ## The mean -/

section Mean

variable {K : Type} [MachineArith K]

/-- The sum of one component, in the order of the list. -/
def sumOf (j : Fin 6) (samples : List (Fin 6 → Double K)) : Double K :=
  samples.foldl (fun sum sample => sum + sample j) 0

/-- The component-wise mean, zeros for no samples. -/
def meanOf (samples : List (Fin 6 → Double K)) : Fin 6 → Double K := fun j =>
  if samples = [] then 0 else sumOf j samples / Double.lit samples.length

end Mean

namespace MoveCatersianImpWithGripper

section Observed

variable {K : Type} [MachineArith K]

def computeWrenchExtOBias (s : MoveCatersianImpWithGripper K) : Fin 6 → Double K :=
  let validSize := if s.wrench.full then biasWindowSize else s.wrench.idx
  if validSize = 0 then fun _ => 0
  else fun j =>
    (List.range validSize).foldl (fun mean i => mean + s.wrench.buffer i j) 0 /
      Double.lit validSize

/-- The wrench an event records. -/
def recorded (s : MoveCatersianImpWithGripper K) : Event K → Option (Fin 6 → Double K)
  | .update given =>
      if s.services.lifecycle = .active ∧ (s.prepare given).1 = true then given.robotState
      else .none
  | _ => .none

/-- The controller, the samples since its last configuration, and the number before it. -/
structure Sampling (K : Type) where
  controller : MoveCatersianImpWithGripper K
  earlier : Nat
  samples : List (Fin 6 → Double K)

/-- The controller's step, observed. -/
def Sampling.step (o : Sampling K) (e : Event K) : Sampling K :=
  if o.controller.reconfigures e then
    ⟨o.controller.step e, o.earlier + o.samples.length, []⟩
  else
    ⟨o.controller.step e, o.earlier, o.samples ++ (o.controller.recorded e).toList⟩

/-- A controller that has not run yet. -/
def Sampling.start (params : Params K) : Sampling K := ⟨constructed params, 0, []⟩

/-- The bias is the mean of the last samples since the last configuration. -/
def Sampling.BiasIsMean (o : Sampling K) : Prop :=
  o.controller.computeWrenchExtOBias = meanOf (lastOf biasWindowSize o.samples)

/-! ## The ring -/

/-- The window as a ring. -/
def ring (s : MoveCatersianImpWithGripper K) : RingBuffer (Fin 6 → Double K) :=
  ⟨s.wrench.buffer, s.wrench.idx, s.wrench.full⟩

theorem ring_pushWrench (sample : Fin 6 → Double K) (s : MoveCatersianImpWithGripper K) :
    (s.pushWrench sample).ring = s.ring.push biasWindowSize sample := rfl

theorem ring_congr {s s' : MoveCatersianImpWithGripper K} (same : s'.wrench = s.wrench) :
    s'.ring = s.ring := by
  rw [ring, ring, same]

theorem computeWrenchExtOBias_eq (s : MoveCatersianImpWithGripper K) :
    s.computeWrenchExtOBias = meanOf (s.ring.contents biasWindowSize) := by
  have used : s.ring.used biasWindowSize = if s.wrench.full then biasWindowSize else s.wrench.idx :=
    rfl
  have empty : s.ring.contents biasWindowSize = [] ↔ s.ring.used biasWindowSize = 0 := by
    rw [← List.length_eq_zero_iff, RingBuffer.length_contents]
  have sums : ∀ j, sumOf j (s.ring.contents biasWindowSize) =
      (List.range (s.ring.used biasWindowSize)).foldl
        (fun mean i => mean + s.wrench.buffer i j) 0 := fun _ => List.foldl_map
  funext j
  simp only [computeWrenchExtOBias, meanOf, sums, empty, ← used, RingBuffer.length_contents]
  split <;> rfl

/-! ## What a step does to it -/

theorem controlCycle_wrench (given : Cycle K) (s : MoveCatersianImpWithGripper K) :
    (s.controlCycle given).2.wrench = s.wrench := by
  unfold controlCycle
  simp only
  split
  · rfl
  · rename_i map built
    obtain ⟨refs, task, gripper, frame⟩ := phase_frame given { s with
      counters := { s.counters with nTorque := s.counters.nTorque + 1 }
      interfaces := { s.interfaces with cmdMap := some map } }
    split
    · rename_i s₂ run
      rw [run] at frame
      rw [show s₂ = _ from frame]
    · rename_i s₂ run
      rw [run] at frame
      rw [show s₂ = _ from frame]
      rfl

theorem update_wrench (given : Cycle K) (s : MoveCatersianImpWithGripper K) :
    (s.update given).2.wrench = (s.prepare given).2.wrench := by
  rcases s.update_cases given with ⟨t, prepared, eq⟩ | ⟨t, r, t', prepared, ran, eq⟩
  · rw [eq, prepared]
  · have later : t'.wrench = t.wrench := by
      split at ran
      · obtain ⟨r', i, asked, move, torque, frame, -⟩ := t.warmupCycle_frame given
        rw [frame] at ran
        obtain ⟨-, rfl⟩ := Prod.mk.inj ran
        rfl
      · have kept := t.controlCycle_wrench given
        rwa [ran] at kept
    rw [eq, prepared, ← later]
    split
    · obtain ⟨steps, logged⟩ := t'.appendLogSample_frame
      rw [logged]
    · rfl

/-- The reads of a cycle write its wrench to the ring, once they have succeeded. -/
theorem prepare_ring (given : Cycle K) (s : MoveCatersianImpWithGripper K) :
    ((s.prepare given).1 = false ∧ (s.prepare given).2.ring = s.ring) ∨
      ∃ sample, given.robotState = some sample ∧ (s.prepare given).1 = true ∧
        (s.prepare given).2.ring = s.ring.push biasWindowSize sample := by
  have gated : s.gated.wrench = s.wrench := by
    obtain ⟨task, refs, gripper, log, frame⟩ := s.gated_frame
    rw [frame]
  unfold prepare
  simp only
  generalize begun : ({ s.gated with counters := { s.gated.counters with
      nRt := s.gated.counters.nRt + 1, timeTotal := s.gated.counters.timeTotal + given.dt } } :
        MoveCatersianImpWithGripper K) = t
  have same : t.wrench = s.wrench := by rw [← begun, ← gated]
  obtain ⟨i, m, frame, -⟩ := readState_frame given.stateValues t
  rcases read : t.readState given.stateValues with ⟨done, t'⟩
  rw [read] at frame
  obtain rfl : t' = _ := frame
  cases done with
  | false => exact .inl ⟨rfl, ring_congr same⟩
  | true =>
      cases given.robotState with
      | none => exact .inl ⟨rfl, ring_congr same⟩
      | some sample =>
          refine .inr ⟨sample, rfl, rfl, ?_⟩
          obtain ⟨warmup, captured⟩ := captureWarmup_frame
            (pushWrench sample { t with interfaces := i, measured := m })
          show (captureWarmup (pushWrench sample _)).ring = _
          rw [captured, ← ring_congr same]
          rfl

/-- A failed transition, or none at all, leaves the window alone. -/
theorem ring_settle {s : MoveCatersianImpWithGripper K} {target : Lifecycle}
    {out : CallbackReturn × MoveCatersianImpWithGripper K} (same : out.2.wrench = s.wrench) :
    (settle target out).ring = s.ring := by
  obtain ⟨result, s'⟩ := out
  cases result <;> exact ring_congr same

/-- A configuration clears the cells of the ring, and only those. -/
theorem ring_reconfigured {s : MoveCatersianImpWithGripper K} {e : Event K}
    (reconfigured : s.reconfigures e = true) :
    (s.step e).ring = ⟨fun _ _ => 0, s.ring.idx, s.ring.full⟩ := by
  cases e with
  | configure given =>
      simp only [reconfigures, Bool.and_eq_true, decide_eq_true_eq] at reconfigured
      obtain ⟨unconfigured, success⟩ := reconfigured
      rw [step, if_pos unconfigured]
      rcases onConfigure_cases given s with failed | ⟨p, eq⟩
      · rw [failed] at success
        cases success
      · rw [eq]
        rfl
  | _ => cases reconfigured

/-- Every other event appends what it records. -/
theorem ring_step {s : MoveCatersianImpWithGripper K} {e : Event K}
    (other : s.reconfigures e = false) :
    (s.step e).ring =
      match s.recorded e with
      | some sample => s.ring.push biasWindowSize sample
      | .none => s.ring := by
  cases e with
  | configure given =>
      simp only [recorded, step]
      split
      · rename_i unconfigured
        rcases onConfigure_cases given s with eq | ⟨p, eq⟩
        · rw [eq]
          exact ring_settle rfl
        · simp [reconfigures, unconfigured, eq] at other
      · rfl
  | activate given =>
      obtain ⟨refs, kinematics, i, m, warmup, task, gripper, frame, -⟩ := onActivate_frame given s
      simp only [recorded, step]
      split
      · exact ring_settle (by rw [frame])
      · rfl
  | update given =>
      simp only [recorded, step]
      by_cases active : s.services.lifecycle = .active
      · have wrote := ring_congr (update_wrench given s)
        rw [if_pos active, wrote]
        rcases prepare_ring given s with ⟨unread, kept⟩ | ⟨sample, message, read, pushed⟩
        · rw [if_neg (by simp [unread]), kept]
        · rw [if_pos ⟨active, read⟩, message, pushed]
      · rw [if_neg active, if_neg fun both => active both.1]
  | gripperTimer moveServer graspServer =>
      simp only [recorded, step, gripperTimer]
      repeat' split
      all_goals rfl
  | housekeeping =>
      simp only [recorded, step, housekeeping, saveLogToTxt]
      repeat' split
      all_goals rfl
  | taskCmd =>
      simp only [recorded, step, onTaskCmd]
      repeat' split
      all_goals rfl
  | deactivate | cleanup | graspResponse | graspResult | moveResponse | moveResult =>
      simp only [recorded, step]
      split <;> rfl

/-! ## What the ring holds -/

/-- The last samples, behind a zero for every sample before the configuration. -/
structure HoldsSamples (o : Sampling K) : Prop where
  inside : o.controller.ring.idx < biasWindowSize
  holds : o.controller.ring.recent biasWindowSize =
    lastOf biasWindowSize (List.replicate o.earlier 0 ++ o.samples)

theorem holdsSamples_step {o : Sampling K} (held : HoldsSamples o) (e : Event K) :
    HoldsSamples (o.step e) := by
  obtain ⟨inside, holds⟩ := held
  cases reconfigured : o.controller.reconfigures e with
  | true =>
      have ring := ring_reconfigured reconfigured
      have used : o.controller.ring.used biasWindowSize =
          min (o.earlier + o.samples.length) biasWindowSize := by
        rw [← RingBuffer.length_recent inside, holds, length_lastOf, List.length_append,
          List.length_replicate]
      have after : o.step e =
          ⟨o.controller.step e, o.earlier + o.samples.length, []⟩ := if_pos reconfigured
      rw [after]
      refine ⟨by rw [ring]; exact inside, ?_⟩
      rw [ring, RingBuffer.recent_const _ _ inside, List.append_nil, lastOf_replicate, ← used]
      rfl
  | false =>
      have ring := ring_step reconfigured
      have after : o.step e = ⟨o.controller.step e, o.earlier,
          o.samples ++ (o.controller.recorded e).toList⟩ :=
        if_neg (by rw [reconfigured]; exact Bool.false_ne_true)
      rw [after]
      cases sampled : o.controller.recorded e with
      | none =>
          rw [sampled] at ring
          exact ⟨by rw [ring]; exact inside, by rw [ring, holds]; simp⟩
      | some sample =>
          rw [sampled] at ring
          refine ⟨by rw [ring]; exact RingBuffer.idx_push inside sample, ?_⟩
          rw [ring, RingBuffer.recent_push inside, holds, lastOf_lastOf_append, List.append_assoc]
          rfl

/-- **In every run, the ring holds the last samples behind zeros.** -/
theorem holdsSamples_run (params : Params K) (es : List (Event K)) :
    HoldsSamples (run Sampling.step (Sampling.start params) es) := by
  refine run_invariant (I := HoldsSamples) (A := fun _ => True) Sampling.step
    (fun o e _ held => holdsSamples_step held e) (fun _ _ => trivial) ⟨?_, ?_⟩
  · exact (by decide : 0 < biasWindowSize)
  · simp [Sampling.start, constructed, ring, RingBuffer.recent, lastOf]

end Observed

/-! ## The mean of what it holds -/

section Exact

theorem add_right_comm_exact (a b c : Double ℚ) : a + b + c = a + c + b := by
  cases a <;> cases b <;> cases c <;>
    first
    | rfl
    | exact congrArg Double.fin (add_right_comm _ _ _)

theorem sumOf_perm {xs ys : List (Fin 6 → Double ℚ)} (perm : xs.Perm ys) (j : Fin 6) :
    sumOf j xs = sumOf j ys :=
  perm.foldl_eq' (fun _ _ _ _ _ => add_right_comm_exact _ _ _) 0

theorem meanOf_perm {xs ys : List (Fin 6 → Double ℚ)} (perm : xs.Perm ys) :
    meanOf xs = meanOf ys := by
  have empty : xs = [] ↔ ys = [] := by
    rw [← List.length_eq_zero_iff, perm.length_eq, List.length_eq_zero_iff]
  funext j
  simp only [meanOf, sumOf_perm perm j, perm.length_eq, empty]

theorem sumOf_zeros (j : Fin 6) (k : Nat) (xs : List (Fin 6 → Double ℚ)) :
    sumOf j (List.replicate k 0 ++ xs) = sumOf j xs := by
  induction k with
  | zero => rfl
  | succ k ih =>
      have nothing : (0 : Double ℚ) + 0 = 0 := congrArg Double.fin (add_zero 0)
      rw [List.replicate_succ, List.cons_append, sumOf, List.foldl_cons, Pi.zero_apply, nothing]
      exact ih

theorem fin_div_count {k : Nat} (positive : 0 < k) (x : ℚ) :
    Double.fin x / Double.lit k = Double.fin (x / k) :=
  if_neg (Nat.cast_pos.2 positive).ne'

/-- Infinities and NaN stay what they are. -/
theorem div_count_of_not_finite {k : Nat} (positive : 0 < k) {a : Double ℚ}
    (infinite : a.isFinite = false) : a / Double.lit k = a := by
  have above : (0 : ℚ) < k := Nat.cast_pos.2 positive
  cases a with
  | nan => rfl
  | fin x => cases infinite
  | posInf | negInf =>
      show (if (k : ℚ) = 0 then _ else Double.signedInf (k : ℚ) _) = _
      simp [Double.signedInf, above, above.ne']

/-- One sum is the same mean over two counts when it is zero, or no finite number. -/
theorem div_count_iff {m n : Nat} (hm : 0 < m) (hn : 0 < n) (a : Double ℚ) :
    a / Double.lit m = a / Double.lit n ↔ m = n ∨ a = 0 ∨ a.isFinite = false := by
  cases finite : a.isFinite with
  | false =>
      refine iff_of_true ?_ (.inr (.inr rfl))
      rw [div_count_of_not_finite hm finite, div_count_of_not_finite hn finite]
  | true =>
      obtain ⟨x, rfl⟩ : ∃ x, a = .fin x := by
        cases a with
        | fin x => exact ⟨x, rfl⟩
        | _ => cases finite
      have zero : (Double.fin x = 0) ↔ x = 0 := ⟨fun same => Double.fin.inj same, congrArg _⟩
      have above : ∀ {k : Nat}, 0 < k → (k : ℚ) ≠ 0 := fun positive => (Nat.cast_pos.2 positive).ne'
      rw [fin_div_count hm, fin_div_count hn, Double.fin.injEq, zero,
        div_eq_div_iff (above hm) (above hn), mul_eq_mul_left_iff, Nat.cast_inj]
      simp [eq_comm]

/-- Zeros in front of the samples go unnoticed when there are none, or when the samples add
up to zero, or to no finite number, in every component. -/
theorem meanOf_zeros_iff (k : Nat) (xs : List (Fin 6 → Double ℚ)) :
    meanOf (List.replicate k 0 ++ xs) = meanOf xs ↔
      k = 0 ∨ ∀ j, sumOf j xs = 0 ∨ (sumOf j xs).isFinite = false := by
  rcases Nat.eq_zero_or_pos k with rfl | some
  · exact iff_of_true rfl (.inl rfl)
  have padded : List.replicate k 0 ++ xs ≠ [] := by
    intro empty
    rw [List.append_eq_nil_iff, List.replicate_eq_nil_iff] at empty
    exact some.ne' empty.1
  rw [funext_iff, or_iff_right some.ne']
  refine forall_congr' fun j => ?_
  rw [meanOf, if_neg padded, sumOf_zeros, List.length_append, List.length_replicate]
  cases xs with
  | nil =>
      have nothing : sumOf j ([] : List (Fin 6 → Double ℚ)) = 0 := rfl
      have zero : (0 : Double ℚ) / Double.lit (k : ℚ) = 0 := by
        rw [show (0 : Double ℚ) = Double.fin 0 from rfl, fin_div_count some, zero_div]
      exact iff_of_true zero (.inl nothing)
  | cons x xs =>
      rw [meanOf, if_neg (List.cons_ne_nil x xs), div_count_iff (by omega) (by simp)]
      exact or_iff_right (by omega)

/-- **When the bias is the mean since the last configuration**: when there were no samples
before it, or enough since to have overwritten them, or when dividing by another count does
not matter. -/
theorem biasIsMean_iff (params : Params ℚ) (es : List (Event ℚ)) :
    (run Sampling.step (Sampling.start params) es).BiasIsMean ↔
      (run Sampling.step (Sampling.start params) es).earlier = 0 ∨
      biasWindowSize ≤ (run Sampling.step (Sampling.start params) es).samples.length ∨
      ∀ j, sumOf j (run Sampling.step (Sampling.start params) es).samples = 0 ∨
        (sumOf j (run Sampling.step (Sampling.start params) es).samples).isFinite = false := by
  generalize reached : run Sampling.step (Sampling.start params) es = o
  obtain ⟨inside, holds⟩ : HoldsSamples o := reached ▸ holdsSamples_run params es
  rw [Sampling.BiasIsMean, computeWrenchExtOBias_eq,
    meanOf_perm (RingBuffer.contents_perm_recent inside), holds, lastOf_replicate_append,
    meanOf_zeros_iff]
  by_cases full : biasWindowSize ≤ o.samples.length
  · have none : o.earlier - (o.earlier + o.samples.length - biasWindowSize) = 0 := by omega
    exact iff_of_true (.inl none) (.inr (.inl full))
  · have fresh : o.earlier - (o.earlier + o.samples.length - biasWindowSize) = 0 ↔
        o.earlier = 0 := by omega
    rw [lastOf_of_le (Nat.le_of_not_le full), or_iff_right full, fresh]

/-- A wrench of one newton and one newton metre. -/
def unitCycle : Cycle ℚ := { fr3Cycle 1 0 0 with robotState := some fun _ => Double.lit 1 }

/-- The concrete robot, configured once more after its first sample. -/
def configuredTwice : List (Event ℚ) :=
  [.configure (fr3Configuration fr3Scalars), .activate (fr3Activation 0), .update unitCycle,
    .deactivate, .cleanup, .configure (fr3Configuration fr3Scalars), .activate (fr3Activation 0),
    .update unitCycle]

theorem bias_configuredTwice :
    ¬ (run Sampling.step (Sampling.start fr3Params) configuredTwice).BiasIsMean := by
  intro mean
  exact absurd (congrFun mean 0) (by decide +kernel)

end Exact

end MoveCatersianImpWithGripper

end FrankaRos.Controller
