/-
# EffortController.Deactivation -- the last command before the interfaces are released

`on_deactivate` of either controller limits the efforts towards a torque of zero once more,
writes them, and only then lets its base class release the interfaces.  The zero is a vector
of six entries, whatever the chain, and the loop that reads it runs over the joints.

Where the six are enough the rate limit does what it is for: every effort is `lowered`, it
comes nearer to zero by the rate or by all of it, in any rounding (`saturated_zero`).  The
limit on the value then changes nothing, since the efforts were within it already
(`lowered_stays`).  `along_deactivates_iff` puts this together for whole runs.
-/
import FrankaRos.EffortController.TorqueContinuity

namespace FrankaRos.EffortController

open FrankaRos.Theory

set_option autoImplicit false

namespace Configured

variable {K I : Type} [SignedArith K] (c : Configured K)

/-! ## The zero torque -/

/-- `ctrl::Vector6D::Zero()`, as it arrives. -/
def vector6Zero : List (Double K) := List.replicate 6 0

/-- Its entries where it has them. -/
theorem zeroTorque_eq (pastEnd : Fin c.numJoints → Double K) (i : Fin c.numJoints) :
    c.zeroTorque pastEnd i = ((vector6Zero : List (Double K))[i.val]?).getD (pastEnd i) := by
  unfold zeroTorque vector6Zero
  rw [List.getElem?_replicate]
  split <;> rfl

/-- The loop over the joints reads the vector within its size. -/
def ReadsInside : Prop := ∀ i : Fin c.numJoints, i.val < (vector6Zero : List (Double K)).length

variable {c}

theorem readsInside_iff : c.ReadsInside ↔ c.numJoints ≤ 6 := by
  have six : (vector6Zero : List (Double K)).length = 6 := List.length_replicate
  unfold ReadsInside
  rw [six]
  constructor
  · intro inside
    by_contra more
    exact absurd (inside ⟨6, Nat.lt_of_not_le more⟩) (Nat.lt_irrefl 6)
  · exact fun few i => i.isLt.trans_le few

/-- Read within its size, the vector is zero for every joint, whatever lies past its end. -/
theorem ReadsInside.zeroTorque (inside : c.ReadsInside) (pastEnd : Fin c.numJoints → Double K)
    (i : Fin c.numJoints) : c.zeroTorque pastEnd i = 0 := by
  have there := inside i
  rw [zeroTorque_eq, List.getElem?_eq_getElem there, Option.getD_some]
  exact List.getElem_replicate there

/-! ## Nearer to zero -/

/-- An effort, moved towards zero by a rate, or by all of it. -/
def lowered (rate effort : Double K) : Double K :=
  if .fin 0 ≤ effort then effort - Double.min (Double.abs effort) rate
  else effort + Double.min (Double.abs effort) rate

/-- The rate cuts a non-negative difference from above only, also when it is NaN. -/
theorem not_lt_neg_delta {a : Double K} (nonneg : .fin 0 ≤ a) : ¬ a < -c.deltaTauMax := by
  cases nan : c.deltaTauMax.isNaN with
  | true =>
      rw [Double.isNaN_iff.1 nan]
      exact Double.not_lt_nan a
  | false =>
      exact Double.not_lt_of_le (Double.le_trans (Double.neg_nonpos (delta_nonneg nan)) nonneg)

theorem min_delta_nonneg {a : Double K} (nonneg : .fin 0 ≤ a) :
    .fin 0 ≤ Double.min a c.deltaTauMax := by
  unfold Double.min
  split
  · rename_i below
    exact delta_nonneg (Double.le_number (Double.le_of_lt below)).1
  · exact nonneg

/-- **The rate limit, towards zero.** -/
theorem saturated_zero (effort : Double K) :
    effort + c.saturated (0 - effort) = lowered c.deltaTauMax effort := by
  have difference : (0 : Double K) - effort = -effort := Double.fin_zero_sub effort
  rw [difference]
  by_cases above : .fin 0 ≤ effort
  · -- only the rate from below can cut
    have low : Double.max (-effort) (-c.deltaTauMax) = -Double.min effort c.deltaTauMax :=
      Double.max_neg_neg effort c.deltaTauMax
    have high : ¬ c.deltaTauMax < -Double.min effort c.deltaTauMax := by
      rw [← Double.neg_lt_neg_iff, Double.neg_neg]
      exact not_lt_neg_delta (min_delta_nonneg above)
    rw [saturated, low, Double.min, if_neg high, lowered, if_pos above,
      Double.abs_of_nonneg above]
    rfl
  · rw [lowered, if_neg above]
    cases nan : effort.isNaN with
    | true => rw [Double.isNaN_iff.1 nan, Double.nan_add, Double.nan_add]
    | false =>
        -- only the rate from above can cut
        have below : effort ≤ .fin 0 := (Double.le_total (a := .fin 0) rfl nan).resolve_left above
        have low : ¬ -effort < -c.deltaTauMax := not_lt_neg_delta (Double.neg_nonneg below)
        rw [saturated, Double.max, if_neg low, Double.abs_of_nonpos below]

/-- What an effort loses is neither negative nor more than all of it. -/
theorem share_mem {rate effort : Double K} (nonneg : .fin 0 ≤ Double.abs effort)
    (rated : ¬ rate < .fin 0) :
    .fin 0 ≤ Double.min (Double.abs effort) rate ∧
      Double.min (Double.abs effort) rate ≤ Double.abs effort := by
  obtain ⟨-, number⟩ := Double.le_number nonneg
  unfold Double.min
  split
  · rename_i below
    have less := Double.le_of_lt below
    exact ⟨(Double.not_lt_iff rfl (Double.le_number less).1).1 rated, less⟩
  · exact ⟨nonneg, Double.le_refl number⟩

/-- **Nearer to zero**, in any rounding. -/
theorem lowered_mem {rate : Double K} (rated : ¬ rate < .fin 0) (x : K) :
    -Double.abs (.fin x) ≤ lowered rate (.fin x) ∧
      lowered rate (.fin x) ≤ Double.abs (.fin x) := by
  rcases le_or_gt 0 x with above | below
  · have nonneg : (.fin 0 : Double K) ≤ .fin x := Double.fin_le_fin.2 above
    have size := Double.abs_of_nonneg nonneg
    obtain ⟨positive, least⟩ := share_mem (size.symm ▸ nonneg) rated
    rw [size] at positive least
    rw [lowered, if_pos nonneg, size]
    refine ⟨?_, Double.fin_sub_le x positive⟩
    calc (-.fin x : Double K)
        = .fin 0 + -.fin x := (Double.fin_zero_add _).symm
      _ ≤ .fin x + -.fin x := Double.fin_add_le_fin_add above rfl
      _ ≤ .fin x + -Double.min (.fin x) rate := Double.fin_add_mono x (Double.neg_le_neg least)
  · have nonpos : (.fin x : Double K) ≤ .fin 0 := Double.fin_le_fin.2 below.le
    have negative : ¬ (.fin 0 : Double K) ≤ .fin x := fun above =>
      below.not_ge (Double.fin_le_fin.1 above)
    have size := Double.abs_of_nonpos nonpos
    obtain ⟨positive, least⟩ := share_mem (size.symm ▸ Double.neg_nonneg nonpos) rated
    rw [size] at positive least
    rw [lowered, if_neg negative, size, Double.neg_neg]
    refine ⟨Double.fin_le_fin_add x positive, ?_⟩
    calc (.fin x + Double.min (-.fin x) rate : Double K)
        ≤ .fin x + -.fin x := Double.fin_add_mono x least
      _ ≤ .fin 0 + -.fin x := Double.fin_add_le_fin_add below.le rfl
      _ = -.fin x := Double.fin_zero_add _

theorem delta_not_neg : ¬ c.deltaTauMax < .fin 0 := by
  have least : (.fin 0 : Double K) ≤ Double.lit 1 := Double.lit_nonneg (by norm_num)
  intro below
  exact c.delta_accepted (Double.lt_of_lt_of_le below least)

/-- An effort within its limit is lowered within it. -/
theorem lowered_stays {l effort : Double K} (ordered : ¬ l < -l)
    (inside : Double.clamp effort (-l) l = effort) :
    Double.clamp (lowered c.deltaTauMax effort) (-l) l = lowered c.deltaTauMax effort := by
  cases l with
  | nan | posInf => simp [Double.clamp]
  | negInf => exact absurd rfl ordered
  | fin l =>
      cases nan : effort.isNaN with
      | true =>
          have still : lowered c.deltaTauMax effort = .nan := by
            rw [Double.isNaN_iff.1 nan, lowered, if_neg (by simp [Double.le_def, Double.le,
              Double.isNaN]), Double.nan_add]
          rw [still, Double.clamp_nan]
      | false =>
          rw [Double.clamp_eq_self_iff] at inside
          have low : -.fin l ≤ effort := (Double.not_lt_iff rfl nan).1 inside.1
          have high : effort ≤ .fin l := (Double.not_lt_iff nan rfl).1 inside.2
          obtain ⟨x, rfl⟩ := Double.exists_fin low high
          have size : Double.abs (.fin x) ≤ .fin l := Double.abs_le low high
          have rated : ¬ c.deltaTauMax < .fin 0 := delta_not_neg
          obtain ⟨above, below⟩ := lowered_mem rated x
          rw [Double.clamp_eq_self_iff]
          exact ⟨Double.not_lt_of_le (Double.le_trans (Double.neg_le_neg size) above),
            Double.not_lt_of_le (Double.le_trans below size)⟩

/-! ## One deactivation -/

variable (c) (lib : OrderedInterfaces I)

/-- A deactivation as it should be: the vector is read within its size, the bounds are in
the order that `std::clamp` asks for, and every joint's interface is left with an effort
lowered by the rate. -/
structure SafeDeactivation (pastEnd : Fin c.numJoints → Double K)
    (s : DerivedController K I c.numJoints) : Prop where
  inside : c.ReadsInside
  ordered : c.OrderedLimits
  lowers : ∃ s', c.deactivate lib pastEnd s = some s' ∧
    ∀ i, s'.base.efforts i = lowered c.deltaTauMax (s.base.efforts i) ∧
      s'.held (c.effortName i) = s'.base.efforts i

/-- What holds between the calls of a run whose limits are in order: the efforts the
controller remembers are within them. -/
structure Remembers (s : DerivedController K I c.numJoints) : Prop where
  ready : c.Ready lib s
  inside : c.limited s.base.efforts = s.base.efforts

variable {c lib}

theorem limited_command (limits : c.OrderedLimits) (i : Fin c.numJoints)
    (effort torque : Double K) :
    Double.clamp (c.command i effort torque) (-c.jointEffortLimits i) (c.jointEffortLimits i) =
      c.command i effort torque := Double.clamp_clamp (limits i)

theorem Remembers.start (limits : c.OrderedLimits) (held : Held K) :
    c.Remembers lib (c.start held) := by
  refine ⟨Ready.start held, funext fun i => ?_⟩
  show Double.clamp (.fin 0) _ _ = .fin 0
  rw [Double.clamp_eq_self_iff]
  cases nan : (c.jointEffortLimits i).isNaN with
  | true => simp [Double.isNaN_iff.1 nan]
  | false =>
      have around : -c.jointEffortLimits i ≤ c.jointEffortLimits i :=
        (Double.not_lt_iff (by rw [Double.neg_isNaN, nan]) nan).1 (limits i)
      have nonneg := Double.nonneg_of_neg_le_self around
      exact ⟨Double.not_lt_of_le (Double.neg_nonpos nonneg), Double.not_lt_of_le nonneg⟩

theorem Remembers.call (limits : c.OrderedLimits) {s s' : DerivedController K I c.numJoints}
    (remembers : c.Remembers lib s) {e : Call c lib} (ran : c.call lib (some s) e = some s') :
    c.Remembers lib s' := by
  rcases e.writes_or_silent s with ⟨active, tau, torque⟩ | silent
  · obtain ⟨t, ran', commanded, ready⟩ := remembers.ready.call_writes limits active torque
    obtain rfl := Option.some.inj (ran.symm.trans ran')
    refine ⟨ready, funext fun i => ?_⟩
    unfold limited
    rw [commanded.efforts]
    exact limited_command limits i _ _
  · obtain ⟨ready, efforts, -⟩ := remembers.ready.call_silent silent ran
    exact ⟨ready, by rw [efforts, remembers.inside]⟩

/-- With six joints at most, a deactivation is as it should be. -/
theorem Remembers.safe (limits : c.OrderedLimits) (few : c.numJoints ≤ 6)
    {s : DerivedController K I c.numJoints} (remembers : c.Remembers lib s)
    (active : s.active = true) (pastEnd : Fin c.numJoints → Double K) :
    c.SafeDeactivation lib pastEnd s := by
  have inside : c.ReadsInside := readsInside_iff.2 few
  obtain ⟨s', ran, commanded, -⟩ :=
    remembers.ready.call_writes limits active (e := .deactivate pastEnd) rfl
  have ran' : c.deactivate lib pastEnd s = some s' := by
    rw [← ran, Configured.call, if_pos active]
  refine ⟨inside, limits, s', ran', fun i => ⟨?_, commanded.held i⟩⟩
  rw [commanded.efforts, inside.zeroTorque, command, saturated_zero]
  exact lowered_stays (limits i) (congrFun remembers.inside i)

/-! ## Runs -/

variable (c lib)

/-- A deactivation of an active controller is as it should be. -/
def DeactivatesSafely (state : Option (DerivedController K I c.numJoints)) (e : Call c lib) :
    Prop :=
  ∀ s pastEnd, state = some s → s.active = true → e = .deactivate pastEnd →
    c.SafeDeactivation lib pastEnd s

/-- One that is deactivated has no seventh joint, and no negative limit. -/
def SixSuffice (state : Option (DerivedController K I c.numJoints)) (e : Call c lib) : Prop :=
  ∀ s pastEnd, state = some s → s.active = true → e = .deactivate pastEnd →
    c.numJoints ≤ 6 ∧ c.OrderedLimits

variable {c lib}

/-- **Safe deactivation, exactly.**  In a run of activations, updates and deactivations,
every deactivation reads its zeros within their size and lowers every joint's effort by the
rate, or by all of it, if and only if no controller is deactivated that has more than six
joints or a negative limit. -/
theorem along_deactivates_iff (held : Held K) (es : List (Call c lib)) :
    Along (c.call lib) (c.DeactivatesSafely lib) (some (c.start held)) es ↔
      Along (c.call lib) (c.SixSuffice lib) (some (c.start held)) es := by
  constructor
  · refine Along.mono (c.call lib) fun state e safe s pastEnd here active deactivates => ?_
    obtain ⟨inside, ordered, -⟩ := safe s pastEnd here active deactivates
    exact ⟨readsInside_iff.1 inside, ordered⟩
  · by_cases limits : c.OrderedLimits
    · intro suffice
      refine suffice.of_invariant (c.call lib)
        (I := fun state => ∀ s, state = some s → c.Remembers lib s) ?_ ?_ ?_
      · intro state e _ remembers s' ran
        cases state with
        | none => cases ran
        | some s => exact (remembers s rfl).call limits ran
      · intro state e six remembers s pastEnd here active deactivates
        obtain ⟨few, -⟩ := six s pastEnd here active deactivates
        exact (remembers s here).safe limits few active pastEnd
      · intro s same
        exact Option.some.inj same ▸ Remembers.start limits held
    · -- nothing is deactivated
      refine Along.mono (c.call lib) fun state e six s pastEnd here active deactivates => ?_
      exact absurd (six s pastEnd here active deactivates).2 limits

/-! ## The concrete arm -/

/-- Its seventh joint has no zero. -/
theorem not_along_deactivates_seven :
    ¬ Along ((fr3Effort false).call fullNames) ((fr3Effort false).DeactivatesSafely fullNames)
      fr3Start (fr3Updates 3 1 ++ [.deactivate fun _ => 0]) := by
  intro along
  have last := (along_iff_split ((fr3Effort false).call fullNames) _ _ _).1 along (fr3Updates 3 1)
    (.deactivate fun _ => 0) [] rfl
  have ran : (run ((fr3Effort false).call fullNames) fr3Start (fr3Updates 3 1)).map
      (fun s => s.active) = some true := by decide +kernel
  obtain ⟨s, here, active⟩ := Option.map_eq_some_iff.1 ran
  have few := readsInside_iff.1 (last s _ here active rfl).inside
  exact absurd few (by decide)

end Configured

end FrankaRos.EffortController
