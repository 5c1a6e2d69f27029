/-
# Theory.Descent -- bounded iteration of a partial step

An iterative search replaces its iterate by `next` of it, which has no value where the
search stops by itself, at most a given number of times.  `follow` is the iterate after
exactly `n` steps, `trail` the iterates behind the start, and `final` the last of them.

What a step does to an iterate, a search does to its start (`final_related`), and what a
step keeps is still there at the end, whenever it appeared (`final_of_kept`).
-/
import Mathlib.Data.List.Chain
import Mathlib.Data.List.Induction

namespace FrankaRos.Theory

set_option autoImplicit false

universe u

variable {Q : Type u} (next : Q → Option Q)

/-- The iterate after `n` steps, if the search gets that far. -/
def follow : Nat → Q → Option Q
  | 0, q => some q
  | n + 1, q => (next q).bind (follow n)

/-- The iterates behind the start, in order, in at most `n` steps. -/
def trail : Nat → Q → List Q
  | 0, _ => []
  | n + 1, q =>
      match next q with
      | none => []
      | some q' => q' :: trail n q'

/-- Where a search of at most `n` steps ends. -/
def final : Nat → Q → Q
  | 0, q => q
  | n + 1, q =>
      match next q with
      | none => q
      | some q' => final n q'

theorem length_trail_le (n : Nat) (q : Q) : (trail next n q).length ≤ n := by
  induction n generalizing q with
  | zero => exact Nat.le_refl 0
  | succ n ih =>
      rw [trail]
      split
      · exact Nat.zero_le _
      · exact Nat.succ_le_succ (ih _)

/-- Every iterate is the successor of the one before. -/
theorem isChain_trail {R : Q → Q → Prop} (related : ∀ q q', next q = some q' → R q q') (n : Nat)
    (q : Q) : List.IsChain R (q :: trail next n q) := by
  induction n generalizing q with
  | zero => exact List.isChain_singleton q
  | succ n ih =>
      rw [trail]
      split
      · exact List.isChain_singleton q
      · rename_i q' moved
        exact List.isChain_cons_cons.2 ⟨related q q' moved, ih q'⟩

theorem final_eq_getLast (n : Nat) (q : Q) :
    final next n q = (q :: trail next n q).getLast (List.cons_ne_nil _ _) := by
  induction n generalizing q with
  | zero => rfl
  | succ n ih =>
      rw [final]
      cases moved : next q with
      | none => simp [trail, moved]
      | some q' => simp [trail, moved, ih q']

theorem final_mem (n : Nat) (q : Q) : final next n q ∈ q :: trail next n q := by
  rw [final_eq_getLast]
  exact List.getLast_mem _

/-- A relation that composes with the steps leads from the start to the end. -/
theorem final_related {R : Q → Q → Prop} (related : ∀ q q', next q = some q' → R q q')
    (trans : ∀ q q' q'', R q q' → R q' q'' → R q q'') (n : Nat) (q : Q) :
    final next n q = q ∨ R q (final next n q) := by
  induction n generalizing q with
  | zero => exact .inl rfl
  | succ n ih =>
      rw [final]
      cases moved : next q with
      | none => exact .inl rfl
      | some q' =>
          have first := related q q' moved
          refine .inr ?_
          rcases ih q' with same | rest
          · simpa only [same] using first
          · exact trans _ _ _ first rest

/-- The end is the start or the successor of another iterate. -/
theorem final_origin (n : Nat) (q : Q) :
    final next n q = q ∨ ∃ y, next y = some (final next n q) :=
  final_related next (R := fun _ z => ∃ y, next y = some z) (fun q _ moved => ⟨q, moved⟩)
    (fun _ _ _ _ last => last) n q

/-- The end is one of the iterates. -/
theorem follow_final (n : Nat) (q : Q) : ∃ k ≤ n, follow next k q = some (final next n q) := by
  induction n generalizing q with
  | zero => exact ⟨0, Nat.le_refl 0, rfl⟩
  | succ n ih =>
      rw [final]
      cases moved : next q with
      | none => exact ⟨0, Nat.zero_le _, rfl⟩
      | some q' =>
          obtain ⟨k, within, reached⟩ := ih q'
          refine ⟨k + 1, Nat.succ_le_succ within, ?_⟩
          rw [follow, moved]
          exact reached

/-- What a step keeps, the end has if any iterate has it. -/
theorem final_of_kept {P : Q → Prop} (kept : ∀ q q', next q = some q' → P q → P q') {n k : Nat}
    (within : k ≤ n) {q z : Q} (reached : follow next k q = some z) (holds : P z) :
    P (final next n q) := by
  induction n generalizing q k with
  | zero =>
      obtain rfl := Nat.le_zero.1 within
      rw [follow] at reached
      exact Option.some.inj reached ▸ holds
  | succ n ih =>
      cases k with
      | zero =>
          obtain rfl := Option.some.inj reached
          rcases final_related next (R := fun a b => P a → P b) kept
            (fun _ _ _ first second here => second (first here)) (n + 1) q with same | rest
          · rwa [same]
          · exact rest holds
      | succ k =>
          rw [follow] at reached
          rw [final]
          cases moved : next q with
          | none =>
              rw [moved] at reached
              cases reached
          | some q' =>
              rw [moved] at reached
              exact ih (Nat.le_of_succ_le_succ within) reached

end FrankaRos.Theory
