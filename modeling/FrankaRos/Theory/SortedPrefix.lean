/-
# Theory.SortedPrefix -- where some members of a sorted list stand

A list that is sorted strictly contains the members of another such list at its beginning
exactly if everything else in it is greater than they are.
-/
import Mathlib

namespace FrankaRos.Theory

set_option autoImplicit false

variable {α : Type} [LinearOrder α]

/-- What stands behind a prefix is greater than its members. -/
theorem lt_of_isPrefix {names list : List α} (sorted : list.Pairwise (· < ·))
    (first : names <+: list) {x : α} (member : x ∈ list) (other : x ∉ names) {a : α}
    (named : a ∈ names) : a < x := by
  obtain ⟨rest, rfl⟩ := first
  have behind : x ∈ rest := (List.mem_append.1 member).resolve_left other
  exact (List.pairwise_append.1 sorted).2.2 a named x behind

/-- The heads agree if what is not named is greater. -/
theorem head_eq {a b : α} {names list : List α} (sorted : (b :: list).Pairwise (· < ·))
    (ordered : (a :: names).Pairwise (· < ·)) (within : a ∈ b :: list)
    (behind : ∀ x ∈ b :: list, x ∉ a :: names → ∀ c ∈ a :: names, c < x) : a = b := by
  rcases List.mem_cons.1 within with same | later
  · exact same
  · have below : b < a := (List.pairwise_cons.1 sorted).1 a later
    by_cases named : b ∈ a :: names
    · rcases List.mem_cons.1 named with same | tail
      · exact same.symm
      · exact absurd ((List.pairwise_cons.1 ordered).1 b tail) (lt_asymm below)
    · exact absurd (behind b List.mem_cons_self named a List.mem_cons_self) (lt_asymm below)

/-- Members of a sorted list are its prefix if everything else is greater. -/
theorem prefix_of_behind {names list : List α} (sorted : list.Pairwise (· < ·))
    (ordered : names.Pairwise (· < ·)) (within : ∀ a ∈ names, a ∈ list)
    (behind : ∀ x ∈ list, x ∉ names → ∀ a ∈ names, a < x) : names <+: list := by
  induction names generalizing list with
  | nil => exact List.nil_prefix
  | cons a names ih =>
      cases list with
      | nil => exact absurd (within a List.mem_cons_self) List.not_mem_nil
      | cons b list =>
          -- the heads agree, and what is behind them is a case of its own
          obtain rfl := head_eq sorted ordered (within a List.mem_cons_self) behind
          obtain ⟨above, ordered⟩ := List.pairwise_cons.1 ordered
          obtain ⟨front, sorted⟩ := List.pairwise_cons.1 sorted
          refine List.cons_prefix_cons.2 ⟨rfl, ih sorted ordered ?_ ?_⟩
          · intro c named
            rcases List.mem_cons.1 (within c (List.mem_cons_of_mem a named)) with rfl | later
            · exact absurd (above c named) (lt_irrefl c)
            · exact later
          · intro x member other c named
            have apart : x ∉ a :: names := by
              intro listed
              rcases List.mem_cons.1 listed with rfl | listed
              · exact lt_irrefl x (front x member)
              · exact other listed
            exact behind x (List.mem_cons_of_mem a member) apart c (List.mem_cons_of_mem a named)

theorem prefix_iff_behind {names list : List α} (sorted : list.Pairwise (· < ·))
    (ordered : names.Pairwise (· < ·)) (within : ∀ a ∈ names, a ∈ list) :
    names <+: list ↔ ∀ x ∈ list, x ∉ names → ∀ a ∈ names, a < x :=
  ⟨fun first _ member other _ named => lt_of_isPrefix sorted first member other named,
    prefix_of_behind sorted ordered within⟩

end FrankaRos.Theory
