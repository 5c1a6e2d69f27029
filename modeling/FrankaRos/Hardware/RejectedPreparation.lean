/-
# Hardware.RejectedPreparation -- a refused request and the claim flags

`prepare_command_mode_switch` checks and applies a request one interface type at a
time.  When it throws, the types in front of the offending one already have the claims
the request asks for, and the offending one has lost its own if its stop set is
complete (`prepareLoop_refused`).  The refusal by the number of start interfaces comes
before the loop and changes nothing.

`refusedAtomically_iff` says when nothing of a refused request shows.
-/
import FrankaRos.Hardware.ElbowHandover
import FrankaRos.Hardware.ModeSwitch

namespace FrankaRos.Hardware

open FrankaRos.Theory

set_option autoImplicit false

set_option linter.unusedSectionVars false

universe u

theorem CommandInterface.size_ne_zero (i : CommandInterface) : i.size ≠ 0 := by
  rcases i with m | _
  · cases m <;> decide
  · decide

theorem commandInterfacesInfo_nodup : commandInterfacesInfo.Nodup := by decide

namespace FrankaHardwareInterface

variable {K : Type u} [MachineArith K]

/-! ## Rows of a request -/

/-- Neither list names only a part of the row's interfaces. -/
def CompleteRow (s : FrankaHardwareInterface K) (start stop : List String)
    (i : CommandInterface) : Prop :=
  (s.countType i stop = i.size ∨ s.countType i stop = 0) ∧
    (s.countType i start = i.size ∨ s.countType i start = 0)

instance (s : FrankaHardwareInterface K) (start stop : List String) (i : CommandInterface) :
    Decidable (s.CompleteRow start stop i) := inferInstanceAs (Decidable (_ ∧ _))

theorem setClaimed_setClaimed (s : FrankaHardwareInterface K) (i : CommandInterface) (a b : Bool) :
    (s.setClaimed i a).setClaimed i b = s.setClaimed i b := by
  simp only [setClaimed, Function.update_idem]

theorem setClaimed_self (s : FrankaHardwareInterface K) (i : CommandInterface) :
    s.setClaimed i (s.claimed i) = s := by
  simp only [setClaimed, Function.update_eq_self]

theorem prepareInterface_complete {s : FrankaHardwareInterface K} {start stop : List String}
    {i : CommandInterface} (complete : s.CompleteRow start stop i) :
    prepareInterface start stop i s =
      (.returned .ok, s.setClaimed i (s.requested start stop i)) := by
  have positive := i.size_ne_zero
  obtain ⟨stopped, started⟩ := complete
  rcases stopped with stopped | stopped <;> rcases started with started | started
  · simp [prepareInterface, requested, stopped, started, setClaimed_setClaimed]
  · simp [prepareInterface, requested, stopped, started, positive.symm]
  · simp [prepareInterface, requested, stopped, started, positive.symm]
  · simp [prepareInterface, requested, stopped, started, positive.symm, setClaimed_self]

/-- A row that throws still serves a complete stop set first. -/
theorem prepareInterface_refused {s : FrankaHardwareInterface K} {start stop : List String}
    {i : CommandInterface} (incomplete : ¬ s.CompleteRow start stop i) :
    ∃ message, prepareInterface start stop i s =
      (.threw message, if s.countType i stop = i.size then s.setClaimed i false else s) := by
  by_cases stopped : s.countType i stop = i.size
  · have started : s.countType i start ≠ i.size ∧ s.countType i start ≠ 0 := by
      simpa [CompleteRow, stopped] using incomplete
    refine ⟨errorMessage "start" i.interfaceType (s.countType i start) i.size, ?_⟩
    simp [prepareInterface, stopped, started]
  · by_cases none : s.countType i stop = 0
    · have started : s.countType i start ≠ i.size ∧ s.countType i start ≠ 0 := by
        simpa [CompleteRow, none] using incomplete
      have positive := i.size_ne_zero
      refine ⟨errorMessage "start" i.interfaceType (s.countType i start) i.size, ?_⟩
      simp [prepareInterface, none, started, positive.symm]
    · refine ⟨errorMessage "stop" i.interfaceType (s.countType i stop) i.size, ?_⟩
      simp [prepareInterface, stopped, none]

/-! ## The loop -/

theorem requested_setClaimed (s : FrankaHardwareInterface K) (start stop : List String)
    {i j : CommandInterface} (other : j ≠ i) (b : Bool) :
    (s.setClaimed i b).requested start stop j = s.requested start stop j := by
  have kept : (s.setClaimed i b).claimed j = s.claimed j := Function.update_of_ne other _ _
  simp only [requested, kept]
  rfl

theorem prepareLoop_complete {rows : List CommandInterface} {s : FrankaHardwareInterface K}
    {start stop : List String} (complete : ∀ i ∈ rows, s.CompleteRow start stop i) :
    (prepareLoop start stop rows s).1 = .returned .ok := by
  induction rows generalizing s with
  | nil => rfl
  | cons i rows ih =>
      rw [prepareLoop, prepareInterface_complete (complete i List.mem_cons_self)]
      exact ih fun j member => complete j (List.mem_cons_of_mem i member)

/-- What a loop that throws leaves in the claim flags. -/
theorem prepareLoop_refused {done rest : List CommandInterface} {bad : CommandInterface}
    {s : FrankaHardwareInterface K} {start stop : List String}
    (nodup : (done ++ bad :: rest).Nodup) (complete : ∀ i ∈ done, s.CompleteRow start stop i)
    (incomplete : ¬ s.CompleteRow start stop bad) :
    ∃ message s', prepareLoop start stop (done ++ bad :: rest) s = (.threw message, s') ∧
      ∀ i, s'.claimed i =
        if i ∈ done then s.requested start stop i
        else if i = bad ∧ s.countType i stop = i.size then false
        else s.claimed i := by
  induction done generalizing s with
  | nil =>
      obtain ⟨message, refused⟩ := prepareInterface_refused incomplete
      refine ⟨message, _, by rw [List.nil_append, prepareLoop, refused], fun i => ?_⟩
      by_cases stopped : s.countType bad stop = bad.size
      · by_cases here : i = bad
        · simp [here, stopped, setClaimed]
        · simp [here, stopped, setClaimed]
      · have kept : ¬ (i = bad ∧ s.countType i stop = i.size) := by
          rintro ⟨rfl, served⟩
          exact stopped served
        simp [stopped, kept]
  | cons j done ih =>
      rw [List.cons_append, List.nodup_cons] at nodup
      obtain ⟨fresh, nodup⟩ := nodup
      have served := prepareInterface_complete (complete j List.mem_cons_self)
      obtain ⟨message, s', ran, claims⟩ := ih (s := s.setClaimed j (s.requested start stop j))
        nodup (fun i member => complete i (List.mem_cons_of_mem j member)) incomplete
      refine ⟨message, s', by rw [List.cons_append, prepareLoop, served]; exact ran, fun i => ?_⟩
      rw [claims i]
      by_cases here : i = j
      · subst here
        have outside : i ∉ done := fun member => fresh (List.mem_append_left _ member)
        have other : i ≠ bad := fun same => fresh (by simp [same])
        simp [outside, other, setClaimed]
      · have kept : (s.setClaimed j (s.requested start stop j)).claimed i = s.claimed i :=
          Function.update_of_ne here _ _
        rw [requested_setClaimed s start stop here, kept]
        simp only [List.mem_cons, here, false_or]
        rfl

/-- The loop writes the claim flags and nothing else. -/
theorem prepareLoop_eq_self {rows : List CommandInterface} {s : FrankaHardwareInterface K}
    {start stop : List String}
    (kept : ∀ i, (prepareLoop start stop rows s).2.claimed i = s.claimed i) :
    (prepareLoop start stop rows s).2 = s := by
  obtain ⟨claims, frame⟩ := prepareLoop_frame start stop rows s
  rw [frame] at kept ⊢
  rw [show claims = s.claimed from funext kept]

/-- Every row is complete, or there is a first one that is not. -/
theorem complete_or_first (s : FrankaHardwareInterface K) (start stop : List String)
    (rows : List CommandInterface) :
    (∀ i ∈ rows, s.CompleteRow start stop i) ∨
      ∃ done bad rest, rows = done ++ bad :: rest ∧ (∀ i ∈ done, s.CompleteRow start stop i) ∧
        ¬ s.CompleteRow start stop bad := by
  cases first : rows.find? fun i => ¬ s.CompleteRow start stop i with
  | none => exact .inl fun i member => by simpa using List.find?_eq_none.1 first i member
  | some bad =>
      obtain ⟨incomplete, done, rest, split, complete⟩ := List.find?_eq_some_iff_append.1 first
      refine .inr ⟨done, bad, rest, split, fun i member => ?_, by simpa using incomplete⟩
      simpa using complete i member

/-! ## Refused requests -/

/-- A request that is refused leaves the claim flags, and with them what the next
`perform_command_mode_switch` does. -/
def RefusedAtomically (s : FrankaHardwareInterface K) (start stop : List String) : Prop :=
  (s.prepareCommandModeSwitch start stop).1 ≠ .returned .ok →
    (∀ i, (s.prepareCommandModeSwitch start stop).2.claimed i = s.claimed i) ∧
      ∀ outcome, (s.prepareCommandModeSwitch start stop).2.performCommandModeSwitch outcome =
        s.performCommandModeSwitch outcome

/-- The rows served before the first incomplete one have the claims the request asks
for, and the incomplete one has none that a complete stop set would take. -/
def KeepsClaims (s : FrankaHardwareInterface K) (start stop : List String) : Prop :=
  ∀ done bad rest, commandInterfacesInfo = done ++ bad :: rest →
    (∀ i ∈ done, s.CompleteRow start stop i) → ¬ s.CompleteRow start stop bad →
      (∀ i ∈ done, s.requested start stop i = s.claimed i) ∧
        (s.countType bad stop = bad.size → s.claimed bad = false)

/-- **Refused requests, exactly.**  A refused request leaves no trace if and only if
there are too many start interfaces, or the part of it that is applied before the
throw changes no claim. -/
theorem refusedAtomically_iff (s : FrankaHardwareInterface K) (start stop : List String) :
    s.RefusedAtomically start stop ↔
      start.length = maxNumberStartInterfaces ∨ s.KeepsClaims start stop := by
  by_cases many : start.length = maxNumberStartInterfaces
  · have refused : s.prepareCommandModeSwitch start stop = (.returned .error, s) := if_pos many
    simp [RefusedAtomically, many, refused]
  have loop : s.prepareCommandModeSwitch start stop =
      prepareLoop start stop commandInterfacesInfo s := if_neg many
  have nodup := commandInterfacesInfo_nodup
  simp only [RefusedAtomically, many, false_or, loop]
  constructor
  · intro atomic done bad rest split complete incomplete
    rw [split] at nodup atomic
    obtain ⟨message, s', ran, claims⟩ := prepareLoop_refused nodup complete incomplete
    rw [ran] at atomic
    obtain ⟨kept, -⟩ := atomic (by simp)
    constructor
    · intro i member
      rw [← kept i, claims i, if_pos member]
    · intro stopped
      have outside : bad ∉ done := fun member => incomplete (complete bad member)
      rw [← kept bad, claims bad, if_neg outside, if_pos ⟨rfl, stopped⟩]
  · intro keeps refused
    rcases s.complete_or_first start stop commandInterfacesInfo with
      complete | ⟨done, bad, rest, split, complete, incomplete⟩
    · exact absurd (prepareLoop_complete complete) refused
    obtain ⟨served, withdrawn⟩ := keeps done bad rest split complete incomplete
    have kept : ∀ i, (prepareLoop start stop commandInterfacesInfo s).2.claimed i = s.claimed i := by
      intro i
      rw [split] at nodup ⊢
      obtain ⟨message, s', ran, claims⟩ := prepareLoop_refused nodup complete incomplete
      rw [ran, claims i]
      split
      · exact served i ‹_›
      split
      · rename_i here
        obtain ⟨rfl, stopped⟩ := here
        exact (withdrawn stopped).symm
      · rfl
    exact ⟨kept, fun outcome => by rw [prepareLoop_eq_self kept]⟩

/-- Effort control complete, and one velocity interface. -/
def effortAndOneVelocity : List String := jointInterfaces "effort" ++ ["fr3_joint1/velocity"]

/-- Effort is claimed before the velocity interface is refused. -/
theorem not_refusedAtomically_effort :
    ¬ (constructed (K := ℚ) exportedJoints).RefusedAtomically effortAndOneVelocity [] := by
  intro atomic
  obtain ⟨kept, -⟩ := atomic (by decide)
  exact absurd (kept (.mode .effort)) (by decide)

end FrankaHardwareInterface

end FrankaRos.Hardware
