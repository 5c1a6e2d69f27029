/-
# Gazebo.PluginTiming -- when the plugin updates the controllers

Gazebo calls the plugin twice in every iteration: `PreUpdate` writes the commands, always, and
`PostUpdate` reads the state and updates the controllers, when at least a control period of
simulated time has passed since it last did.  Each update is given the time since the one
before it, and none comes sooner than a control period after it, whatever the simulated time
does (`updates_spaced`): set back to zero by a reset it leaves the controllers without an update
until it is where it was.  With iterations of equal length each update is given a whole number
of them, which is the control period only if they make it up (`updates_at_rate_iff`).
-/
import Mathlib.Tactic.Ring
import FrankaRos.Theory.Throttle

namespace FrankaRos.Gazebo

open FrankaRos.Theory

set_option autoImplicit false

/-- The plugin; times are in nanoseconds. -/
structure IgnitionROS2ControlPlugin where
  hasControllerManager : Bool
  controlPeriod : Int
  lastUpdateSimTimeRos : Int
  deriving DecidableEq, Repr

/-- The calls of the controller manager, with their times and periods. -/
inductive Call
  | write (time period : Int)
  | read (time period : Int)
  | update (time period : Int)
  deriving DecidableEq, Repr

namespace IgnitionROS2ControlPlugin

def preUpdate (simTime : Int) (p : IgnitionROS2ControlPlugin) : List Call :=
  if p.hasControllerManager = false then []
  else [.write simTime (simTime - p.lastUpdateSimTimeRos)]

def postUpdate (simTime : Int) (p : IgnitionROS2ControlPlugin) :
    IgnitionROS2ControlPlugin × List Call :=
  if p.hasControllerManager = false then (p, [])
  else
    let simPeriod := simTime - p.lastUpdateSimTimeRos
    if p.controlPeriod ≤ simPeriod then
      ({ p with lastUpdateSimTimeRos := simTime }, [.read simTime simPeriod, .update simTime simPeriod])
    else (p, [])

/-- One iteration of the simulation. -/
def iterate (p : IgnitionROS2ControlPlugin) (simTime : Int) : IgnitionROS2ControlPlugin :=
  (p.postUpdate simTime).1

def iterateCalls (p : IgnitionROS2ControlPlugin) (simTime : Int) : List Call :=
  p.preUpdate simTime ++ (p.postUpdate simTime).2

/-- The calls of a run. -/
def calls (p : IgnitionROS2ControlPlugin) : List Int → List Call
  | [] => []
  | t :: ts => p.iterateCalls t ++ (p.iterate t).calls ts

/-- The updates among some calls. -/
def updates (calls : List Call) : List (Int × Int) :=
  calls.filterMap fun
    | .update time period => some (time, period)
    | _ => none

theorem updates_append (calls calls' : List Call) :
    updates (calls ++ calls') = updates calls ++ updates calls' :=
  List.filterMap_append

section

variable {p : IgnitionROS2ControlPlugin} (present : p.hasControllerManager = true)

include present

theorem iterate_eq (t : Int) : p.iterate t =
    { p with lastUpdateSimTimeRos := Throttle.next p.controlPeriod p.lastUpdateSimTimeRos t } := by
  obtain ⟨_, period, last⟩ := p
  cases present
  simp only [iterate, postUpdate, Bool.true_eq_false, if_false, Throttle.next]
  split <;> rfl

theorem updates_iterateCalls (t : Int) : updates (p.iterateCalls t) =
    if p.controlPeriod ≤ t - p.lastUpdateSimTimeRos then [(t, t - p.lastUpdateSimTimeRos)]
    else [] := by
  simp only [iterateCalls, preUpdate, postUpdate, present, Bool.true_eq_false, if_false]
  split <;> rfl

/-- The updates of a run are the times that come through, each with what has passed since the
one before. -/
theorem updates_calls (ts : List Int) : updates (p.calls ts) =
    List.zipWith (fun t before => (t, t - before))
      (Throttle.passed p.controlPeriod p.lastUpdateSimTimeRos ts)
      (p.lastUpdateSimTimeRos :: Throttle.passed p.controlPeriod p.lastUpdateSimTimeRos ts) := by
  induction ts generalizing p with
  | nil => rfl
  | cons t ts ih =>
      have rest := ih (p := p.iterate t) (by
        rw [iterate_eq present]
        exact present)
      rw [calls, updates_append, rest, updates_iterateCalls present, iterate_eq present,
        Throttle.passed]
      by_cases due : p.controlPeriod ≤ t - p.lastUpdateSimTimeRos
      · simp [Throttle.next, due]
      · simp [Throttle.next, due]

/-- **The updates of any run.**  Each is given the time since the one before it, which is a
control period at least; and there is none exactly while the simulated time stays short of a
control period behind the last. -/
theorem updates_spaced (ts : List Int) :
    (∀ (k : Nat) (t d : Int), (updates (p.calls ts))[k]? = some (t, d) → p.controlPeriod ≤ d ∧
        (p.lastUpdateSimTimeRos :: (updates (p.calls ts)).map Prod.fst)[k]? = some (t - d)) ∧
      (updates (p.calls ts) = [] ↔ ∀ t ∈ ts, t < p.lastUpdateSimTimeRos + p.controlPeriod) := by
  rw [updates_calls present]
  have spaced := Throttle.passed_spaced p.controlPeriod p.lastUpdateSimTimeRos ts
  have none := Throttle.passed_eq_nil_iff p.controlPeriod p.lastUpdateSimTimeRos ts
  generalize Throttle.passed p.controlPeriod p.lastUpdateSimTimeRos ts = passed at spaced none ⊢
  have times : (List.zipWith (fun t before => (t, t - before)) passed
      (p.lastUpdateSimTimeRos :: passed)).map Prod.fst = passed := by
    refine List.ext_getElem (by simp) fun k bound bound' => ?_
    simp
  refine ⟨?_, ?_⟩
  · intro k t d listed
    rw [times]
    obtain ⟨t', before, here, previous, same⟩ := List.getElem?_zipWith_eq_some.1 listed
    obtain ⟨rfl, rfl⟩ := Prod.mk.inj same
    refine ⟨?_, by rw [previous, sub_sub_cancel]⟩
    obtain ⟨bound, rfl⟩ := List.getElem?_eq_some_iff.1 here
    obtain ⟨bound', rfl⟩ := List.getElem?_eq_some_iff.1 previous
    have late := List.isChain_iff_getElem.1 spaced k (by simpa using bound)
    rw [List.getElem_cons_succ] at late
    omega
  · rw [← none]
    cases passed <;> simp

end

/-- A plugin that updates every two milliseconds, twice in a simulation that is set back. -/
theorem updates_spaced_setBack :
    let p : IgnitionROS2ControlPlugin := ⟨true, 2, 0⟩
    updates (p.calls [1, 2, 0, 1, 2, 3, 4]) = [(2, 2), (4, 2)] ∧
      ∀ (k : Nat) (t d : Int), (updates (p.calls [1, 2, 0, 1, 2, 3, 4]))[k]? = some (t, d) →
        p.controlPeriod ≤ d :=
  ⟨rfl, fun k t d listed => ((updates_spaced rfl _).1 k t d listed).1⟩

section

variable {p : IgnitionROS2ControlPlugin} (present : p.hasControllerManager = true)
  {step : Int} (positive : 0 < step) (lasting : 0 < p.controlPeriod)

include present positive lasting

theorem updates_steps (k : Nat) :
    updates (p.calls (Throttle.steps p.lastUpdateSimTimeRos step k)) =
      (List.range (k / Throttle.every p.controlPeriod step)).map fun j =>
        (p.lastUpdateSimTimeRos + step * (Throttle.every p.controlPeriod step * (j + 1) : Nat),
          step * Throttle.every p.controlPeriod step) := by
  rw [updates_calls present, Throttle.passed_steps positive lasting]
  refine List.ext_getElem (by simp) fun j bound bound' => ?_
  simp only [List.getElem_zipWith, List.getElem_map, List.getElem_range]
  refine Prod.ext rfl ?_
  cases j with
  | zero => simp
  | succ j =>
      simp only [List.getElem_cons_succ, List.getElem_map, List.getElem_range]
      push_cast
      ring

/-- **The rate of the updates.**  With iterations of equal length there is an update in every
so many of them, as many as it takes to make up a control period, and each is given their whole
length.  That is the control period exactly if the control period is made up of iterations. -/
theorem updates_at_rate_iff :
    (∀ k, updates (p.calls (Throttle.steps p.lastUpdateSimTimeRos step k)) =
      (List.range (k / Throttle.every p.controlPeriod step)).map fun j =>
        (p.lastUpdateSimTimeRos + step * (Throttle.every p.controlPeriod step * (j + 1) : Nat),
          step * Throttle.every p.controlPeriod step)) ∧
      ((∀ k, ∀ u ∈ updates (p.calls (Throttle.steps p.lastUpdateSimTimeRos step k)),
          u.2 = p.controlPeriod) ↔ step ∣ p.controlPeriod) := by
  refine ⟨updates_steps present positive lasting, ?_⟩
  rw [← Throttle.mul_every_iff positive lasting]
  constructor
  · intro exact
    have some := Throttle.every_pos positive lasting
    have first := exact (Throttle.every p.controlPeriod step)
    rw [updates_steps present positive lasting, Nat.div_self some] at first
    exact first _ (List.mem_singleton.2 rfl)
  · intro same k u member
    rw [updates_steps present positive lasting] at member
    obtain ⟨j, -, rfl⟩ := List.mem_map.1 member
    exact same

end

/-- A control period of a millisecond in a simulation that goes on in steps of three quarters of
one. -/
theorem updates_at_rate_threeQuarters :
    let p : IgnitionROS2ControlPlugin := ⟨true, 1000000, 0⟩
    updates (p.calls (Throttle.steps 0 750000 4)) = [(1500000, 1500000), (3000000, 1500000)] ∧
      ¬ ∀ k, ∀ u ∈ updates (p.calls (Throttle.steps 0 750000 k)), u.2 = 1000000 :=
  ⟨rfl, mt (updates_at_rate_iff (p := ⟨true, 1000000, 0⟩) rfl (by decide) (by decide)).2.1
    (by decide)⟩

end IgnitionROS2ControlPlugin

end FrankaRos.Gazebo
