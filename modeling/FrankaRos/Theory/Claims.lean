/-
# Theory.Claims -- two ways to keep a set under requests to start and to stop

A request starts some keys and stops others.  `claims` keeps the set that is meant: what is
stopped leaves it, what is started enters.  `marks` keeps another: as soon as a request stops
anything at all, everything leaves, and then enters what the request starts.

`mem_run_marks_iff` says what is marked behind a sequence of requests.  `marks_eq_iff` says when
marks and claims are the same throughout, up to marks of the beginning that no request has
swept away yet: exactly when every request that stops something stops all that is claimed.
-/
import Mathlib
import FrankaRos.Theory.Run

namespace FrankaRos.Theory

set_option autoImplicit false

universe u v

structure Request (κ : Type u) where
  start : Set κ
  stop : Set κ

namespace Request

variable {κ : Type u} {ι : Type v}

/-- The part of a request that is about the keys of `f`. -/
def comap (f : κ → ι) (r : Request ι) : Request κ := ⟨Set.preimage f r.start, Set.preimage f r.stop⟩

def claims (C : Set κ) (r : Request κ) : Set κ := C \ r.stop ∪ r.start

def marks (M : Set κ) (r : Request κ) : Set κ := {k ∈ M | r.stop = ∅} ∪ r.start

/-- A request stops what is claimed, and starts what is not, or is stopped. -/
structure Lawful (C : Set κ) (r : Request κ) : Prop where
  stop : r.stop ⊆ C
  start : Disjoint r.start (C \ r.stop)

/-- A request that stops something stops all that is claimed. -/
def Whole (C : Set κ) (r : Request κ) : Prop := r.stop.Nonempty → C ⊆ r.stop

theorem claims_comap (f : κ → ι) (C : Set ι) (r : Request ι) :
    claims (Set.preimage f C) (r.comap f) = Set.preimage f (claims C r) := rfl

theorem Lawful.comap (f : κ → ι) {C : Set ι} {r : Request ι} (lawful : Lawful C r) :
    Lawful (Set.preimage f C) (r.comap f) where
  stop _ stopped := lawful.stop stopped
  start := Set.disjoint_left.2 fun _ started => Set.disjoint_left.1 lawful.start started

theorem run_claims_comap (f : κ → ι) (C : Set ι) (rs : List (Request ι)) :
    run claims (Set.preimage f C) (rs.map (Request.comap f)) = Set.preimage f (run claims C rs) := by
  induction rs generalizing C with
  | nil => rfl
  | cons r rs ih => rw [List.map_cons, run_cons, run_cons, claims_comap, ih]

theorem along_lawful_comap (f : κ → ι) {C : Set ι} {rs : List (Request ι)}
    (lawful : Along claims Lawful C rs) :
    Along claims Lawful (Set.preimage f C) (rs.map (Request.comap f)) := by
  induction rs generalizing C with
  | nil => trivial
  | cons r rs ih => exact ⟨lawful.1.comap f, ih lawful.2⟩

/-- **What is marked.**  What was started by the last request that stopped anything, or later;
or what was marked from the beginning, if none has. -/
theorem mem_run_marks_iff {M : Set κ} {rs : List (Request κ)} {k : κ} :
    k ∈ run marks M rs ↔
      (∃ pre r post, rs = pre ++ r :: post ∧ k ∈ r.start ∧ ∀ q ∈ post, q.stop = ∅) ∨
        k ∈ M ∧ ∀ q ∈ rs, q.stop = ∅ := by
  induction rs using List.reverseRecOn with
  | nil => simp
  | append_singleton rs r ih =>
      rw [run_append]
      show (k ∈ run marks M rs ∧ r.stop = ∅ ∨ k ∈ r.start) ↔ _
      rw [ih]
      constructor
      · rintro (⟨⟨pre, q, post, rfl, started, quiet⟩ | ⟨held, quiet⟩, still⟩ | started)
        · refine .inl ⟨pre, q, post ++ [r], by simp, started, ?_⟩
          simpa [or_imp, forall_and, still] using quiet
        · exact .inr ⟨held, by simpa [or_imp, forall_and, still] using quiet⟩
        · exact .inl ⟨rs, r, [], rfl, started, by simp⟩
      · rintro (⟨pre, q, post, same, started, quiet⟩ | ⟨held, quiet⟩)
        · rcases concat_eq_split_iff.1 same with ⟨rfl, rfl, rfl⟩ | ⟨post, rfl, rfl⟩
          · exact .inr started
          · simp only [List.mem_append, List.mem_singleton, or_imp, forall_and, forall_eq] at quiet
            exact .inl ⟨.inl ⟨pre, q, post, rfl, started, quiet.1⟩, quiet.2⟩
        · simp only [List.mem_append, List.mem_singleton, or_imp, forall_and, forall_eq] at quiet
          exact .inl ⟨.inr ⟨held, quiet.1⟩, quiet.2⟩

/-- The marks of the beginning that are still there. -/
def held (M : Set κ) (rs : List (Request κ)) : Set κ := {k ∈ M | ∀ r ∈ rs, r.stop = ∅}

theorem held_concat (M : Set κ) (rs : List (Request κ)) (r : Request κ) :
    held M (rs ++ [r]) = {k ∈ held M rs | r.stop = ∅} := by
  ext k
  simp [held, or_imp, forall_and, and_assoc]

/-- **Marks and claims.**  From nothing claimed, and under lawful requests, the marks are the
claims throughout, and those held from the beginning, exactly if every request is whole. -/
theorem marks_eq_iff {M : Set κ} {rs : List (Request κ)} (lawful : Along claims Lawful ∅ rs) :
    (∀ pre post, rs = pre ++ post → run marks M pre = run claims ∅ pre ∪ held M pre) ↔
      Along claims Whole ∅ rs := by
  constructor
  · intro same
    rw [along_iff_split]
    rintro pre r post rfl ⟨stopped, stops⟩
    have sound := (along_iff_split claims Lawful ∅ _).1 lawful pre r post rfl
    have behind := same (pre ++ [r]) post (by simp)
    intro k claimed
    by_contra kept
    -- `r` sweeps the mark of `k` away, and cannot start what it leaves claimed
    have member : k ∈ run claims ∅ (pre ++ [r]) ∪ held M (pre ++ [r]) := by
      rw [run_append]
      exact .inl (.inl ⟨claimed, kept⟩)
    rw [← behind, run_append] at member
    rcases member with ⟨-, none⟩ | started
    · exact absurd stops (none ▸ Set.notMem_empty stopped)
    · exact Set.disjoint_left.1 sound.start started ⟨claimed, kept⟩
  · intro whole pre post same
    subst same
    replace whole := ((along_append claims Whole ∅ pre post).1 whole).1
    induction pre using List.reverseRecOn generalizing post with
    | nil => simp [held]
    | append_singleton pre r ih =>
        obtain ⟨before, last, -⟩ := (along_append claims Whole ∅ pre [r]).1 whole
        rw [run_append, run_append, held_concat]
        show marks (run marks M pre) r = claims (run claims ∅ pre) r ∪ _
        rw [ih (r :: post) (by simpa using lawful) before]
        rcases Set.eq_empty_or_nonempty r.stop with none | some
        · ext k
          simp [marks, claims, none, or_right_comm]
        · have all := last some
          ext k
          have left : k ∈ run claims ∅ pre → k ∉ r.stop → k ∈ r.start :=
            fun claimed kept => absurd (all claimed) kept
          simpa [marks, claims, some.ne_empty] using left

end Request

end FrankaRos.Theory
