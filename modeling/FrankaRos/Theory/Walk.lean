/-
# Theory.Walk -- walks along a chain of phases

A sequencer moves through its phases by a partial successor `next`: at every
cycle it either stays or moves to the successor.  `IsWalk next a l` says so of
the phases `l` observed after `a`.  Removing repetitions from such a walk leaves
an initial segment of the chain (`destutter_prefix_chain`): no phase is skipped,
re-entered or visited out of order.
-/
import Mathlib.Data.List.Destutter
import Mathlib.Data.List.Chain

namespace FrankaRos.Theory

set_option autoImplicit false

universe u

variable {α : Type u}

/-- Every phase of `l` is its predecessor or that predecessor's successor. -/
def IsWalk (next : α → Option α) (a : α) (l : List α) : Prop :=
  List.IsChain (fun x y => y = x ∨ next x = some y) (a :: l)

/-- `rest` is everything that can follow `a`: the chain of successors, to its end. -/
inductive IsChainOf (next : α → Option α) : α → List α → Prop
  | last {a : α} (stop : next a = none) : IsChainOf next a []
  | step {a b : α} {rest : List α} (succ : next a = some b) (tail : IsChainOf next b rest) :
      IsChainOf next a (b :: rest)

theorem isWalk_cons {next : α → Option α} {a b : α} {l : List α} :
    IsWalk next a (b :: l) ↔ (b = a ∨ next a = some b) ∧ IsWalk next b l :=
  List.isChain_cons_cons

/-- **A walk without its repetitions is an initial segment of the chain.** -/
theorem destutter_prefix_chain [DecidableEq α] {next : α → Option α} {a : α} {rest l : List α}
    (chain : IsChainOf next a rest) (walk : IsWalk next a l) :
    (a :: l).destutter (· ≠ ·) <+: a :: rest := by
  rw [List.destutter_cons']
  induction l generalizing a rest with
  | nil => exact ⟨rest, rfl⟩
  | cons b l ih =>
      obtain ⟨moved, walk⟩ := isWalk_cons.1 walk
      rw [List.destutter'_cons]
      by_cases same : a = b
      · subst same
        simpa using ih chain walk
      · have succ : next a = some b := moved.resolve_left (Ne.symm same)
        rw [if_pos same]
        cases chain with
        | last stop => rw [stop] at succ; cases succ
        | step succ' tail =>
            rw [succ'] at succ
            cases succ
            exact (List.prefix_cons_inj a).2 (ih tail walk)

end FrankaRos.Theory
