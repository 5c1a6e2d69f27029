/-
# Theory.SessionSwitch -- switching one session between modes, mode by mode

A device holds at most one session; its supervisor keeps a running flag per mode
and, on a switch, walks the modes in a fixed order: a mode whose running flag
differs from its claim is started (closing whatever session is open and opening
its own) or stopped (closing whatever session is open).  Stopping one mode after
starting another therefore closes the session just opened.

`agrees_switchAll_iff` says exactly when the flags and the session agree after
such a walk: if nothing changed they must have agreed before, and otherwise no
mode but the last one changed may be claimed.
-/
import Mathlib.Data.List.Nodup
import Mathlib.Logic.Function.Basic

namespace FrankaRos.Theory

set_option autoImplicit false

universe u

/-- A supervisor's running flags and the mode of the open session, if any. -/
structure Session (M : Type u) where
  running : M → Bool
  handle : Option M

namespace Session

variable {M : Type u}

/-- A mode is flagged as running exactly when the open session is of that mode. -/
def Agrees (s : Session M) : Prop := ∀ m, s.running m = true ↔ s.handle = some m

theorem Agrees.at_most_one {s : Session M} (agrees : s.Agrees) {m n : M}
    (hm : s.running m = true) (hn : s.running n = true) : m = n :=
  Option.some.inj (((agrees m).1 hm).symm.trans ((agrees n).1 hn))

variable [DecidableEq M]

/-- Start or stop one mode, if its claim asks for it. -/
def switchOne (claimed : M → Bool) (s : Session M) (m : M) : Session M :=
  if s.running m = claimed m then s
  else ⟨Function.update s.running m (claimed m), if claimed m = true then some m else none⟩

/-- Walk the modes in order. -/
def switchAll (claimed : M → Bool) (s : Session M) (order : List M) : Session M :=
  order.foldl (switchOne claimed) s

/-- The modes of `order` whose running flag differs from their claim. -/
def changed (claimed : M → Bool) (s : Session M) (order : List M) : List M :=
  order.filter fun m => s.running m != claimed m

@[simp] theorem switchAll_cons (claimed : M → Bool) (s : Session M) (m : M) (order : List M) :
    s.switchAll claimed (m :: order) = (s.switchOne claimed m).switchAll claimed order := rfl

theorem switchOne_running (claimed : M → Bool) (s : Session M) (m n : M) :
    (s.switchOne claimed m).running n = if n = m then claimed m else s.running n := by
  unfold switchOne
  split
  · rename_i same
    split
    · rename_i here
      rw [here, same]
    · rfl
  · exact Function.update_apply s.running m (claimed m) n

theorem switchAll_running (claimed : M → Bool) (s : Session M) (order : List M) (n : M) :
    (s.switchAll claimed order).running n = if n ∈ order then claimed n else s.running n := by
  induction order generalizing s with
  | nil => simp [switchAll]
  | cons m order ih =>
      rw [switchAll_cons, ih, switchOne_running]
      by_cases here : n = m
      · simp [here]
      · simp [here]

/-- Switching a mode outside `order` does not change what is left to do there. -/
theorem changed_switchOne (claimed : M → Bool) (s : Session M) {m : M} {order : List M}
    (outside : m ∉ order) : (s.switchOne claimed m).changed claimed order = s.changed claimed order := by
  apply List.filter_congr
  intro n member
  have different : n ≠ m := fun same => outside (same ▸ member)
  rw [switchOne_running, if_neg different]

/-- The session after a walk is the one the last changed mode left. -/
theorem switchAll_handle (claimed : M → Bool) (s : Session M) {order : List M}
    (nodup : order.Nodup) :
    (s.switchAll claimed order).handle =
      match (s.changed claimed order).getLast? with
      | none => s.handle
      | some m => if claimed m = true then some m else none := by
  induction order generalizing s with
  | nil => rfl
  | cons m order ih =>
      obtain ⟨outside, nodup⟩ := List.nodup_cons.1 nodup
      rw [switchAll_cons, ih _ nodup, changed_switchOne claimed s outside]
      unfold changed
      by_cases same : s.running m = claimed m
      · simp [switchOne, same]
      · have head : (m :: order).filter (fun n => s.running n != claimed n) =
            m :: order.filter fun n => s.running n != claimed n :=
          List.filter_cons_of_pos (by simpa using same)
        rw [head, List.getLast?_cons]
        cases List.getLast? (order.filter fun n => s.running n != claimed n) with
        | none => simp [switchOne, same]
        | some n => rfl

/-- What a switch must satisfy for flags and session to agree after it: either it
changes nothing and they agreed before, or it claims no mode but the last one it
starts or stops. -/
def SoundSwitch (claimed : M → Bool) (s : Session M) (order : List M) : Prop :=
  match (s.changed claimed order).getLast? with
  | none => s.Agrees
  | some m => ∀ n, claimed n = true → n = m

/-- **Agreement after a walk over all modes, exactly.** -/
theorem agrees_switchAll_iff (claimed : M → Bool) (s : Session M) {order : List M}
    (nodup : order.Nodup) (complete : ∀ m, m ∈ order) :
    (s.switchAll claimed order).Agrees ↔ s.SoundSwitch claimed order := by
  unfold Agrees SoundSwitch
  simp only [switchAll_running, complete, if_true, switchAll_handle claimed s nodup]
  cases last : (s.changed claimed order).getLast? with
  | none =>
      have unchanged : ∀ m, s.running m = claimed m := by
        intro m
        by_contra different
        have member : m ∈ s.changed claimed order :=
          List.mem_filter.2 ⟨complete m, by simpa using different⟩
        rw [List.getLast?_eq_none_iff] at last
        exact (List.ne_nil_of_mem member) last
      simp [Agrees, unchanged]
  | some m =>
      simp only
      constructor
      · intro agrees n claims
        have handle := (agrees n).1 claims
        split at handle
        · exact (Option.some.inj handle).symm
        · cases handle
      · intro only n
        constructor
        · intro claims
          obtain rfl := only n claims
          rw [if_pos claims]
        · intro handle
          split at handle
          · rename_i claims
            rwa [← Option.some.inj handle]
          · cases handle

end Session

end FrankaRos.Theory
