/-
# Theory.RoseTree -- walking a tree with a stack

A tree with any number of children at every node, and the loop that lists its labels: take
a tree off a stack, write its label down, put its children on the stack, one after the
other.  The child put on last comes off first, so the loop lists the children from the
right (`walk_eq`).  Every label is listed once (`perm_labels`), and each behind the label of
its parent (`parent_before`).
-/
import Mathlib.Data.List.Perm.Basic
import Mathlib.Data.List.Sublists

namespace FrankaRos.Theory

set_option autoImplicit false

universe u

inductive RoseTree (α : Type u) where
  | node (label : α) (children : List (RoseTree α))

namespace RoseTree

variable {α : Type u}

def label : RoseTree α → α
  | node a _ => a

def children : RoseTree α → List (RoseTree α)
  | node _ cs => cs

mutual

/-- All labels, the root's first and the children's from the left. -/
def labels : RoseTree α → List α
  | node a cs => a :: forestLabels cs

def forestLabels : List (RoseTree α) → List α
  | [] => []
  | c :: cs => c.labels ++ forestLabels cs

end

mutual

/-- All labels, the root's first and the children's from the right. -/
def rightLabels : RoseTree α → List α
  | node a cs => a :: forestRight cs

def forestRight : List (RoseTree α) → List α
  | [] => []
  | c :: cs => forestRight cs ++ c.rightLabels

end

mutual

/-- Every node with each of its children, by their labels. -/
def edges : RoseTree α → List (α × α)
  | node a cs => cs.map (fun c => (a, c.label)) ++ forestEdges cs

def forestEdges : List (RoseTree α) → List (α × α)
  | [] => []
  | c :: cs => c.edges ++ forestEdges cs

end

mutual

def size : RoseTree α → Nat
  | node _ cs => forestSize cs + 1

def forestSize : List (RoseTree α) → Nat
  | [] => 0
  | c :: cs => c.size + forestSize cs

end

/-- Put trees on a stack, one after the other. -/
def push (cs stack : List (RoseTree α)) : List (RoseTree α) :=
  cs.foldl (fun stack c => c :: stack) stack

theorem forestSize_push (cs stack : List (RoseTree α)) :
    forestSize (push cs stack) = forestSize cs + forestSize stack := by
  induction cs generalizing stack with
  | nil => simp [push, forestSize]
  | cons c cs ih =>
      have pushed : push (c :: cs) stack = push cs (c :: stack) := rfl
      rw [pushed, ih, forestSize, forestSize]
      omega

/-- The loop, until the stack is empty. -/
def walk : List (RoseTree α) → List α
  | [] => []
  | node a cs :: stack => a :: walk (push cs stack)
termination_by stack => forestSize stack
decreasing_by
  rw [forestSize_push, forestSize, size]
  omega

/-! ## What is listed -/

theorem push_eq (cs stack : List (RoseTree α)) : push cs stack = cs.reverse ++ stack := by
  simp [push]

theorem forestRight_eq (cs : List (RoseTree α)) :
    forestRight cs = cs.reverse.flatMap rightLabels := by
  induction cs with
  | nil => rfl
  | cons c cs ih => simp [forestRight, ih]

/-- The loop lists the trees on the stack, one after the other. -/
theorem walk_eq (stack : List (RoseTree α)) : walk stack = stack.flatMap rightLabels := by
  fun_induction walk stack with
  | case1 => rfl
  | case2 a cs stack ih =>
      rw [ih, push_eq, List.flatMap_append, ← forestRight_eq, List.flatMap_cons, rightLabels,
        List.cons_append]

mutual

/-- The two listings have the same labels. -/
theorem perm_labels (t : RoseTree α) : t.rightLabels.Perm t.labels := by
  cases t with
  | node a cs =>
      rw [rightLabels, labels]
      exact (forest_perm cs).cons a

theorem forest_perm (cs : List (RoseTree α)) : (forestRight cs).Perm (forestLabels cs) := by
  cases cs with
  | nil => exact .refl _
  | cons c cs =>
      rw [forestRight, forestLabels]
      exact List.perm_append_comm.trans ((perm_labels c).append (forest_perm cs))

end

mutual

theorem length_labels (t : RoseTree α) : t.labels.length = t.size := by
  cases t with
  | node a cs => rw [labels, size, List.length_cons, length_forestLabels cs]

theorem length_forestLabels (cs : List (RoseTree α)) :
    (forestLabels cs).length = forestSize cs := by
  cases cs with
  | nil => rfl
  | cons c cs =>
      rw [forestLabels, forestSize, List.length_append, length_labels c, length_forestLabels cs]

end

theorem label_mem_rightLabels (t : RoseTree α) : t.label ∈ t.rightLabels := by
  cases t with
  | node a cs => simp [rightLabels, label]

theorem rightLabels_sublist {c : RoseTree α} {cs : List (RoseTree α)} (member : c ∈ cs) :
    c.rightLabels.Sublist (forestRight cs) := by
  induction cs with
  | nil => cases member
  | cons d cs ih =>
      rw [forestRight]
      rcases List.mem_cons.1 member with rfl | later
      · exact List.sublist_append_right _ _
      · exact (ih later).trans (List.sublist_append_left _ _)

mutual

/-- A parent is listed in front of its children. -/
theorem parent_before (t : RoseTree α) {edge : α × α} (member : edge ∈ t.edges) :
    [edge.1, edge.2].Sublist t.rightLabels := by
  cases t with
  | node a cs =>
      rw [edges, List.mem_append] at member
      rw [rightLabels]
      rcases member with here | below
      · obtain ⟨c, child, rfl⟩ := List.mem_map.1 here
        have listed := (List.singleton_sublist.2 c.label_mem_rightLabels).trans
          (rightLabels_sublist child)
        exact listed.cons_cons a
      · exact (forest_before cs below).cons a

theorem forest_before (cs : List (RoseTree α)) {edge : α × α} (member : edge ∈ forestEdges cs) :
    [edge.1, edge.2].Sublist (forestRight cs) := by
  cases cs with
  | nil => cases member
  | cons c cs =>
      rw [forestEdges, List.mem_append] at member
      rw [forestRight]
      rcases member with here | later
      · exact (parent_before c here).trans (List.sublist_append_right _ _)
      · exact (forest_before cs later).trans (List.sublist_append_left _ _)

end

/-! ## Chains -/

/-- A chain of nodes with one child each, the last of them with the children `last`. -/
def chain (last : List (RoseTree α)) : List α → List (RoseTree α)
  | [] => last
  | a :: as => [node a (chain last as)]

/-- A chain is listed from its root. -/
theorem forestRight_chain (last : List (RoseTree α)) (as : List α) :
    forestRight (chain last as) = as ++ forestRight last := by
  induction as with
  | nil => rfl
  | cons a as ih => simp [chain, forestRight, rightLabels, ih]

end RoseTree

end FrankaRos.Theory
