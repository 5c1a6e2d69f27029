/-
# Theory.Run -- runs of a deterministic event machine

A component that reacts to events is a function `step : S → E → S`; a run is the
chronological list of the events it received.  This module is the small theory
of such runs that every lifecycle, switching and phase argument below uses:

* `run` and its composition over `++` (`run_append`);
* `Along P`, a condition on the state before each event together with that
  event, and the invariant rules `run_invariant_along`, `along_congr` and
  `Along.of_invariant`;
* `Throughout Q`, a condition on every state a run visits;
* `exists_last_rise`: if `Q` fails at the start and holds at the end, some event
  made it true for the last time, and it has held ever since.  "Preceded, in the
  same period, by ..." statements all reduce to this rule.
-/
import Mathlib.Data.List.Induction

namespace FrankaRos.Theory

set_option autoImplicit false

universe u v

variable {S : Type u} {E : Type v} (step : S → E → S)

/-! ## Runs -/

/-- The state after a chronological list of events. -/
def run (s : S) : List E → S
  | [] => s
  | e :: es => run (step s e) es

@[simp] theorem run_nil (s : S) : run step s [] = s := rfl

@[simp] theorem run_cons (s : S) (e : E) (es : List E) :
    run step s (e :: es) = run step (step s e) es := rfl

@[simp] theorem run_append (s : S) (es fs : List E) :
    run step s (es ++ fs) = run step (run step s es) fs := by
  induction es generalizing s with
  | nil => rfl
  | cons e es ih => exact ih (step s e)

/-- The plain invariant rule, for events of an admitted kind. -/
theorem run_invariant {I : S → Prop} {A : E → Prop}
    (preserved : ∀ s e, A e → I s → I (step s e)) {s : S} {es : List E}
    (admitted : ∀ e ∈ es, A e) (start : I s) : I (run step s es) := by
  induction es generalizing s with
  | nil => exact start
  | cons e es ih =>
      apply ih fun e' member => admitted e' (List.mem_cons_of_mem e member)
      exact preserved s e (admitted e List.mem_cons_self) start

/-! ## Conditions along a run -/

/-- `P` holds of every event together with the state in which it arrives. -/
def Along (P : S → E → Prop) : S → List E → Prop
  | _, [] => True
  | s, e :: es => P s e ∧ Along P (step s e) es

@[simp] theorem along_nil (P : S → E → Prop) (s : S) : Along step P s [] := trivial

@[simp] theorem along_cons (P : S → E → Prop) (s : S) (e : E) (es : List E) :
    Along step P s (e :: es) ↔ P s e ∧ Along step P (step s e) es := Iff.rfl

theorem along_append (P : S → E → Prop) (s : S) (es fs : List E) :
    Along step P s (es ++ fs) ↔ Along step P s es ∧ Along step P (run step s es) fs := by
  induction es generalizing s with
  | nil => simp
  | cons e es ih => simp [ih, and_assoc]

/-- `Along`, read off the splits of the event list. -/
theorem along_iff_split (P : S → E → Prop) (s : S) (es : List E) :
    Along step P s es ↔ ∀ pre e post, es = pre ++ e :: post → P (run step s pre) e := by
  constructor
  · rintro along pre e post rfl
    exact ((along_append step P s pre (e :: post)).1 along).2.1
  · intro splits
    induction es generalizing s with
    | nil => trivial
    | cons e es ih =>
        refine ⟨splits [] e es rfl, ih (step s e) fun pre e' post same => ?_⟩
        exact splits (e :: pre) e' post (by rw [same]; rfl)

theorem Along.mono {P Q : S → E → Prop} (weaken : ∀ s e, P s e → Q s e) {s : S} {es : List E}
    (along : Along step P s es) : Along step Q s es := by
  induction es generalizing s with
  | nil => trivial
  | cons e es ih => exact ⟨weaken s e along.1, ih along.2⟩

/-- The invariant rule under a condition on the events as they arrive. -/
theorem run_invariant_along {I : S → Prop} {P : S → E → Prop}
    (preserved : ∀ s e, P s e → I s → I (step s e)) {s : S} {es : List E}
    (along : Along step P s es) (start : I s) : I (run step s es) := by
  induction es generalizing s with
  | nil => exact start
  | cons e es ih => exact ih along.2 (preserved s e along.1 start)

/-- Two conditions that agree wherever an invariant holds agree along a run, if the
invariant survives the events that meet the second. -/
theorem along_congr {I : S → Prop} {A : E → Prop} {P Q : S → E → Prop}
    (preserved : ∀ s e, A e → Q s e → I s → I (step s e))
    (same : ∀ s e, A e → I s → (P s e ↔ Q s e))
    {s : S} {es : List E} (admitted : ∀ e ∈ es, A e) (start : I s) :
    Along step P s es ↔ Along step Q s es := by
  induction es generalizing s with
  | nil => exact Iff.rfl
  | cons e es ih =>
      have here := admitted e List.mem_cons_self
      rw [along_cons, along_cons, same s e here start]
      refine and_congr_right fun meets => ?_
      exact ih (fun e' member => admitted e' (List.mem_cons_of_mem e member))
        (preserved s e here meets start)

/-- What an invariant and a condition on the events give at every event. -/
theorem Along.of_invariant {I : S → Prop} {P Q : S → E → Prop}
    (preserved : ∀ s e, Q s e → I s → I (step s e)) (holds : ∀ s e, Q s e → I s → P s e)
    {s : S} {es : List E} (along : Along step Q s es) (start : I s) : Along step P s es := by
  induction es generalizing s with
  | nil => trivial
  | cons e es ih =>
      exact ⟨holds s e along.1 start, ih along.2 (preserved s e along.1 start)⟩

/-- An event of a run with one more: the last, or one of the run before. -/
theorem concat_eq_split_iff {es pre post : List E} {e x : E} :
    es ++ [e] = pre ++ x :: post ↔
      (es = pre ∧ e = x ∧ post = []) ∨ ∃ rest, post = rest ++ [e] ∧ es = pre ++ x :: rest := by
  constructor
  · intro parts
    rcases post.eq_nil_or_concat with rfl | ⟨rest, last, rfl⟩
    · obtain ⟨same, single⟩ := List.append_inj' parts rfl
      exact .inl ⟨same, List.singleton_inj.1 single, rfl⟩
    · rw [List.concat_eq_append, ← List.cons_append, ← List.append_assoc] at parts
      obtain ⟨same, single⟩ := List.append_inj' parts rfl
      obtain rfl := List.singleton_inj.1 single
      exact .inr ⟨rest, List.concat_eq_append, same⟩
  · rintro (⟨rfl, rfl, rfl⟩ | ⟨rest, rfl, rfl⟩)
    · rfl
    · simp

/-- The last event of a kind, if there is one. -/
theorem exists_last_event (P : S → E → Prop) (s : S) (es : List E) :
    Along step (fun s e => ¬ P s e) s es ∨
      ∃ pre e post, es = pre ++ e :: post ∧ P (run step s pre) e ∧
        Along step (fun s e => ¬ P s e) (step (run step s pre) e) post := by
  induction es generalizing s with
  | nil => exact .inl trivial
  | cons e es ih =>
      rcases ih (step s e) with none | ⟨pre, e', post, rfl, last, after⟩
      · by_cases here : P s e
        · exact .inr ⟨[], e, es, rfl, here, none⟩
        · exact .inl ⟨here, none⟩
      · exact .inr ⟨e :: pre, e', post, rfl, last, after⟩

/-! ## Conditions on every state visited -/

/-- `Q` holds of the start and of every state the run passes through. -/
def Throughout (Q : S → Prop) : S → List E → Prop
  | s, [] => Q s
  | s, e :: es => Q s ∧ Throughout Q (step s e) es

@[simp] theorem throughout_nil (Q : S → Prop) (s : S) : Throughout step Q s [] ↔ Q s := Iff.rfl

@[simp] theorem throughout_cons (Q : S → Prop) (s : S) (e : E) (es : List E) :
    Throughout step Q s (e :: es) ↔ Q s ∧ Throughout step Q (step s e) es := Iff.rfl

theorem Throughout.first {Q : S → Prop} {s : S} {es : List E}
    (throughout : Throughout step Q s es) : Q s := by
  cases es with
  | nil => exact throughout
  | cons e es => exact throughout.1

theorem throughout_append (Q : S → Prop) (s : S) (es fs : List E) :
    Throughout step Q s (es ++ fs) ↔
      Throughout step Q s es ∧ Throughout step Q (run step s es) fs := by
  induction es generalizing s with
  | nil =>
      simp only [List.nil_append, throughout_nil, run_nil, iff_and_self]
      exact fun throughout => throughout.first
  | cons e es ih => simp [ih, and_assoc]

theorem Throughout.last {Q : S → Prop} {s : S} {es : List E}
    (throughout : Throughout step Q s es) : Q (run step s es) := by
  induction es generalizing s with
  | nil => exact throughout
  | cons e es ih => exact ih throughout.2

theorem Throughout.mono {Q R : S → Prop} (weaken : ∀ s, Q s → R s) {s : S} {es : List E}
    (throughout : Throughout step Q s es) : Throughout step R s es := by
  induction es generalizing s with
  | nil => exact weaken s throughout
  | cons e es ih => exact ⟨weaken s throughout.1, ih throughout.2⟩

/-- An invariant of the events that meet a condition holds in every state visited. -/
theorem Along.throughout {I : S → Prop} {P : S → E → Prop}
    (preserved : ∀ s e, P s e → I s → I (step s e)) {s : S} {es : List E}
    (along : Along step P s es) (start : I s) : Throughout step I s es := by
  induction es generalizing s with
  | nil => exact start
  | cons e es ih => exact ⟨start, ih along.2 (preserved s e along.1 start)⟩

/-- `Throughout`, read off the initial segments of the event list. -/
theorem throughout_iff_split (Q : S → Prop) (s : S) (es : List E) :
    Throughout step Q s es ↔ ∀ pre post, es = pre ++ post → Q (run step s pre) := by
  constructor
  · rintro throughout pre post rfl
    exact ((throughout_append step Q s pre post).1 throughout).1.last
  · intro segments
    induction es generalizing s with
    | nil => exact segments [] [] rfl
    | cons e es ih =>
        refine ⟨segments [] (e :: es) rfl, ih (step s e) fun pre post same => ?_⟩
        exact segments (e :: pre) post (by rw [same]; rfl)

/-- **The last rise.**  If `Q` fails at the start and holds at the end of a run,
some event raised it and it has held throughout since. -/
theorem exists_last_rise (Q : S → Prop) {s : S} {es : List E} (start : ¬ Q s)
    (now : Q (run step s es)) :
    ∃ pre e post, es = pre ++ e :: post ∧ ¬ Q (run step s pre) ∧
      Throughout step Q (step (run step s pre) e) post := by
  induction es using List.reverseRecOn with
  | nil => exact absurd now start
  | append_singleton es e ih =>
      by_cases before : Q (run step s es)
      · obtain ⟨pre, e', post, rfl, low, held⟩ := ih before
        refine ⟨pre, e', post ++ [e], by simp, low, ?_⟩
        rw [throughout_append]
        refine ⟨held, ?_⟩
        simp only [run_append, run_cons, run_nil] at now
        exact ⟨held.last, now⟩
      · exact ⟨es, e, [], rfl, before, by simpa using now⟩

/-! ## Machines whose steps can fail -/

/-- The invariant rule for a run that has not failed. -/
theorem foldlM_invariant {step : S → E → Option S} {I : S → Prop} {es : List E} {s s' : S}
    (preserved : ∀ s s', ∀ e ∈ es, I s → step s e = some s' → I s') (start : I s)
    (ran : es.foldlM step s = some s') : I s' := by
  induction es generalizing s with
  | nil => exact Option.some.inj ran ▸ start
  | cons e es ih =>
      rw [List.foldlM_cons] at ran
      obtain ⟨t, first, rest⟩ := Option.bind_eq_some_iff.1 ran
      have here := preserved s t e List.mem_cons_self start first
      exact ih (fun s s' e member => preserved s s' e (List.mem_cons_of_mem _ member)) here rest

end FrankaRos.Theory
