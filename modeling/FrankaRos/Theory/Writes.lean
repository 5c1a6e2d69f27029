/-
# Theory.Writes -- writing a list of values into a store, one key after the other

`writeAll key value l store` writes the value of every element of `l` under its
key, in the order of `l`.  A key that no element has keeps what it held, and the
key of an element that shares it with no other ends up with that element's value.
-/
import Mathlib.Logic.Function.Basic
import Mathlib.Data.List.Basic

namespace FrankaRos.Theory

set_option autoImplicit false

universe u v w

variable {α : Type u} {κ : Type v} {β : Type w} [DecidableEq κ]

def writeAll (key : α → κ) (value : α → β) (l : List α) (store : κ → β) : κ → β :=
  l.foldl (fun store a => Function.update store (key a) (value a)) store

@[simp] theorem writeAll_cons (key : α → κ) (value : α → β) (a : α) (l : List α) (store : κ → β) :
    writeAll key value (a :: l) store =
      writeAll key value l (Function.update store (key a) (value a)) := rfl

theorem writeAll_other {key : α → κ} {value : α → β} {l : List α} {k : κ}
    (other : ∀ a ∈ l, key a ≠ k) (store : κ → β) : writeAll key value l store k = store k := by
  induction l generalizing store with
  | nil => rfl
  | cons a l ih =>
      rw [writeAll_cons, ih fun b member => other b (List.mem_cons_of_mem a member)]
      exact Function.update_of_ne (other a List.mem_cons_self).symm _ _

/-- What a key ends up with depends on nothing else the store held. -/
theorem writeAll_congr {key : α → κ} {value : α → β} {l : List α} {k : κ} {store store' : κ → β}
    (same : store k = store' k) : writeAll key value l store k = writeAll key value l store' k := by
  induction l generalizing store store' with
  | nil => exact same
  | cons a l ih =>
      rw [writeAll_cons, writeAll_cons]
      apply ih
      by_cases here : k = key a
      · rw [here, Function.update_self, Function.update_self]
      · rw [Function.update_of_ne here, Function.update_of_ne here, same]

theorem writeAll_at {key : α → κ} {value : α → β} {l : List α} {a : α} (member : a ∈ l)
    (only : ∀ b ∈ l, key b = key a → b = a) (store : κ → β) :
    writeAll key value l store (key a) = value a := by
  induction l generalizing store with
  | nil => cases member
  | cons b l ih =>
      rw [writeAll_cons]
      by_cases later : a ∈ l
      · exact ih later (fun b' here => only b' (List.mem_cons_of_mem b here)) _
      · obtain rfl : a = b := (List.mem_cons.1 member).resolve_right later
        rw [writeAll_other]
        · exact Function.update_self _ _ _
        · intro b' here same
          exact later (only b' (List.mem_cons_of_mem a here) same ▸ here)

/-- Different keys hold the values that were written under them. -/
theorem map_writeAll_zip {keys : List κ} {values : List β} (differ : keys.Nodup)
    (paired : keys.length = values.length) (store : κ → β) :
    keys.map (writeAll Prod.fst Prod.snd (keys.zip values) store) = values := by
  induction keys generalizing values store with
  | nil => exact (List.eq_nil_of_length_eq_zero paired.symm).symm
  | cons k keys ih =>
      cases values with
      | nil => cases paired
      | cons v values =>
          obtain ⟨fresh, differ⟩ := List.nodup_cons.1 differ
          have other : ∀ entry ∈ keys.zip values, entry.1 ≠ k := by
            intro entry member same
            exact fresh (same ▸ (List.of_mem_zip member).1)
          rw [List.zip_cons_cons, List.map_cons, writeAll_cons, writeAll_other other,
            ih differ (Nat.succ.inj paired), Function.update_self]

end FrankaRos.Theory
