/-
# Theory.Double -- machine doubles over an arbitrary rounded arithmetic

A `double` is a finite machine number, one of the two infinities, or NaN.  The
finite numbers and their rounded operations are a parameter, `MachineArith K`: a
linear order with `add`, `mul` and `div` that may leave the finite range, of
which only three laws are used, all consequences of monotone rounding.  IEEE-754
binary64 in any rounding mode is an instance, and so is every ordered field with
exact operations (`exactArith`, used over `ℚ` to run the model).

Comparisons are those of the language: every comparison with NaN is false, so
`≤` is not the negation of `>` (`not_lt_iff` asks for two numbers).  `clamp` is
`std::clamp`: it maps every number into its bounds (`clamp_mem`) and NaN to NaN
(`clamp_nan`).  The sign of a zero is not represented.
-/
import Mathlib.Algebra.Order.Field.Basic
import Mathlib.Algebra.Order.Field.Rat
import Mathlib.Data.Rat.Cast.Order

namespace FrankaRos.Theory

set_option autoImplicit false

universe u

inductive Double (K : Type u) where
  | nan
  | negInf
  | fin (x : K)
  | posInf
  deriving DecidableEq, Repr

namespace Double

variable {K : Type u}

/-- `std::isnan`. -/
def isNaN : Double K → Bool
  | nan => true
  | _ => false

/-- `std::isfinite`. -/
def isFinite : Double K → Bool
  | fin _ => true
  | _ => false

theorem isNaN_iff {a : Double K} : a.isNaN = true ↔ a = nan := by
  cases a <;> simp [isNaN]

/-! ## Comparisons -/

section Order

variable [LinearOrder K]

/-- The language's `<`: false as soon as one side is NaN. -/
def lt : Double K → Double K → Bool
  | nan, _ => false
  | _, nan => false
  | negInf, negInf => false
  | negInf, _ => true
  | fin _, negInf => false
  | fin x, fin y => decide (x < y)
  | fin _, posInf => true
  | posInf, _ => false

/-- The language's `<=`: false as soon as one side is NaN. -/
def le (a b : Double K) : Bool := !a.isNaN && !b.isNaN && !lt b a

instance : LT (Double K) := ⟨fun a b => lt a b = true⟩
instance : LE (Double K) := ⟨fun a b => le a b = true⟩
instance : DecidableLT (Double K) := fun a b => inferInstanceAs (Decidable (lt a b = true))
instance : DecidableLE (Double K) := fun a b => inferInstanceAs (Decidable (le a b = true))

theorem lt_def (a b : Double K) : a < b ↔ lt a b = true := Iff.rfl
theorem le_def (a b : Double K) : a ≤ b ↔ le a b = true := Iff.rfl

@[simp] theorem fin_le_fin {x y : K} : (fin x : Double K) ≤ fin y ↔ x ≤ y := by
  simp [le_def, le, lt, isNaN]

theorem le_number {a b : Double K} (ordered : a ≤ b) : a.isNaN = false ∧ b.isNaN = false := by
  simp only [le_def, le, Bool.and_eq_true, Bool.not_eq_true'] at ordered
  exact ordered.1

theorem not_le_nan (a : Double K) : ¬ a ≤ nan := by
  intro ordered
  simpa [isNaN] using (le_number ordered).2

/-- Between numbers, `<=` is the negation of `>`. -/
theorem not_lt_iff {a b : Double K} (ha : a.isNaN = false) (hb : b.isNaN = false) :
    ¬ b < a ↔ a ≤ b := by
  simp [le_def, lt_def, le, ha, hb]

@[simp] theorem not_nan_lt (a : Double K) : ¬ (nan : Double K) < a := by simp [lt_def, lt]

@[simp] theorem not_lt_nan (a : Double K) : ¬ a < nan := by cases a <;> simp [lt_def, lt]

@[simp] theorem not_posInf_lt (a : Double K) : ¬ (posInf : Double K) < a := by
  cases a <;> simp [lt_def, lt]

@[simp] theorem not_lt_negInf (a : Double K) : ¬ a < negInf := by cases a <;> simp [lt_def, lt]

protected theorem le_refl {a : Double K} (ha : a.isNaN = false) : a ≤ a := by
  cases a <;> simp_all [le_def, lt, le, isNaN]

protected theorem le_trans {a b c : Double K} (hab : a ≤ b) (hbc : b ≤ c) : a ≤ c := by
  cases a <;> cases b <;> cases c <;>
    simp_all [le_def, lt, le, isNaN]
  exact hab.trans hbc

instance : Trans (LE.le : Double K → Double K → Prop) (LE.le : Double K → Double K → Prop)
    (LE.le : Double K → Double K → Prop) := ⟨Double.le_trans⟩

protected theorem lt_of_lt_of_le {a b c : Double K} (hab : a < b) (hbc : b ≤ c) : a < c := by
  cases a <;> cases b <;> cases c <;>
    simp_all [le_def, lt_def, lt, le, isNaN]
  exact hab.trans_le hbc

protected theorem lt_of_le_of_lt {a b c : Double K} (hab : a ≤ b) (hbc : b < c) : a < c := by
  cases a <;> cases b <;> cases c <;>
    simp_all [le_def, lt_def, lt, le, isNaN]
  exact hab.trans_lt hbc

protected theorem lt_irrefl (a : Double K) : ¬ a < a := by cases a <;> simp [lt_def, lt]

protected theorem not_lt_of_le {a b : Double K} (ordered : a ≤ b) : ¬ b < a :=
  (not_lt_iff (le_number ordered).1 (le_number ordered).2).2 ordered

theorem le_of_lt {a b : Double K} (below : a < b) : a ≤ b := by
  cases a <;> cases b <;> simp_all [le_def, lt_def, lt, le, isNaN]
  exact below.le

protected theorem le_total {a b : Double K} (ha : a.isNaN = false) (hb : b.isNaN = false) :
    a ≤ b ∨ b ≤ a := by
  by_cases below : b < a
  · exact .inr (le_of_lt below)
  · exact .inl ((not_lt_iff ha hb).1 below)

theorem le_posInf {a : Double K} (number : a.isNaN = false) : a ≤ posInf :=
  (not_lt_iff number rfl).1 (not_posInf_lt a)

theorem negInf_le {a : Double K} (number : a.isNaN = false) : negInf ≤ a :=
  (not_lt_iff rfl number).1 (not_lt_negInf a)

/-- What lies between two finite numbers is finite. -/
theorem exists_fin {x y : K} {a : Double K} (above : fin x ≤ a) (below : a ≤ fin y) :
    ∃ z, a = fin z := by
  cases a with
  | fin z => exact ⟨z, rfl⟩
  | _ => simp [le_def, le, lt, isNaN] at above below

/-! ## `std::clamp`, `std::min`, `std::max` and `std::abs` -/

/-- `std::clamp(v, lo, hi)`. -/
def clamp (v lo hi : Double K) : Double K :=
  if v < lo then lo else if hi < v then hi else v

/-- `std::min(a, b)`. -/
def min (a b : Double K) : Double K := if b < a then b else a

/-- `std::max(a, b)`. -/
def max (a b : Double K) : Double K := if a < b then b else a

/-- `std::abs`. -/
def abs [Zero K] [Neg K] : Double K → Double K
  | nan => nan
  | fin x => fin (if x < 0 then -x else x)
  | _ => posInf

/-- A clamped number lies within its bounds, whatever it was. -/
theorem clamp_mem {v lo hi : Double K} (number : v.isNaN = false) (ordered : lo ≤ hi) :
    lo ≤ clamp v lo hi ∧ clamp v lo hi ≤ hi := by
  obtain ⟨hlo, hhi⟩ := le_number ordered
  unfold clamp
  split
  · exact ⟨Double.le_refl hlo, ordered⟩
  · rename_i above
    split
    · exact ⟨ordered, Double.le_refl hhi⟩
    · rename_i below
      exact ⟨(not_lt_iff hlo number).1 above, (not_lt_iff number hhi).1 below⟩

theorem min_le_iff {a b c : Double K} (ha : a.isNaN = false) (hb : b.isNaN = false) :
    min a b ≤ c ↔ a ≤ c ∨ b ≤ c := by
  unfold min
  split
  · rename_i below
    have ordered : b ≤ a := le_of_lt below
    exact ⟨.inr, fun either => either.elim (Double.le_trans ordered) id⟩
  · rename_i above
    have ordered : a ≤ b := (not_lt_iff ha hb).1 above
    exact ⟨.inl, fun either => either.elim id (Double.le_trans ordered)⟩

theorem le_min {a b c : Double K} (left : c ≤ a) (right : c ≤ b) : c ≤ min a b := by
  unfold min
  split
  · exact right
  · exact left

/-- Exactly the values that are not outside the bounds are left alone. -/
theorem clamp_eq_self_iff {v lo hi : Double K} : clamp v lo hi = v ↔ ¬ v < lo ∧ ¬ hi < v := by
  unfold clamp
  split
  · rename_i low
    refine ⟨fun same => ?_, fun inside => absurd low inside.1⟩
    exact absurd (same ▸ low) (Double.lt_irrefl _)
  · split
    · rename_i high
      refine ⟨fun same => ?_, fun inside => absurd high inside.2⟩
      exact absurd (same ▸ high) (Double.lt_irrefl _)
    · rename_i low high
      exact ⟨fun _ => ⟨low, high⟩, fun _ => rfl⟩

theorem clamp_clamp {v lo hi : Double K} (ordered : ¬ hi < lo) :
    clamp (clamp v lo hi) lo hi = clamp v lo hi := by
  rw [clamp_eq_self_iff]
  unfold clamp
  split
  · exact ⟨Double.lt_irrefl lo, ordered⟩
  · split
    · exact ⟨ordered, Double.lt_irrefl hi⟩
    · rename_i low high
      exact ⟨low, high⟩

/-- A clamped number is below a bound above `lo` if it or `hi` is. -/
theorem clamp_le_iff {v lo hi c : Double K} (number : v.isNaN = false) (ordered : lo ≤ hi)
    (above : lo ≤ c) : clamp v lo hi ≤ c ↔ v ≤ c ∨ hi ≤ c := by
  obtain ⟨hlo, hhi⟩ := le_number ordered
  unfold clamp
  split
  · rename_i low
    exact ⟨fun _ => .inl (Double.le_trans (le_of_lt low) above), fun _ => above⟩
  · split
    · rename_i high
      exact ⟨.inr, fun either => either.elim (Double.le_trans (le_of_lt high)) id⟩
    · rename_i inside
      have below : v ≤ hi := (not_lt_iff number hhi).1 inside
      exact ⟨.inl, fun either => either.elim id (Double.le_trans below)⟩

/-- A clamped number is above a bound below `hi` if it or `lo` is. -/
theorem le_clamp_iff {v lo hi c : Double K} (number : v.isNaN = false) (ordered : lo ≤ hi)
    (below : c ≤ hi) : c ≤ clamp v lo hi ↔ c ≤ v ∨ c ≤ lo := by
  obtain ⟨hlo, hhi⟩ := le_number ordered
  unfold clamp
  split
  · rename_i low
    exact ⟨.inr, fun either => either.elim (fun under => Double.le_trans under (le_of_lt low)) id⟩
  · rename_i inside
    have above : lo ≤ v := (not_lt_iff hlo number).1 inside
    split
    · rename_i high
      exact ⟨fun _ => .inl (Double.le_trans below (le_of_lt high)), fun _ => below⟩
    · exact ⟨.inl, fun either => either.elim id (fun under => Double.le_trans under above)⟩

@[simp] theorem clamp_nan (lo hi : Double K) : clamp nan lo hi = nan := by simp [clamp]

theorem abs_of_nonneg [Zero K] [Neg K] {a : Double K} (nonneg : fin 0 ≤ a) : abs a = a := by
  cases a with
  | fin x =>
      have : ¬ x < 0 := not_lt.2 (fin_le_fin.1 nonneg)
      simp [abs, this]
  | _ => first | rfl | simp [le_def, le, lt, isNaN] at nonneg

end Order

end Double

/-! ## Rounded arithmetic -/

/-- The finite numbers of a machine arithmetic.  `ofRat` is the number a decimal
literal denotes; the operations are the rounded ones, which overflow to an
infinity.  The laws hold for every monotone rounding that fixes the machine
numbers. -/
class MachineArith (K : Type u) extends LinearOrder K, Zero K, Neg K where
  ofRat : ℚ → K
  add : K → K → Double K
  mul : K → K → Double K
  div : K → K → Double K
  /-- Adding a non-negative number never decreases. -/
  le_add : ∀ x d : K, 0 ≤ d → Double.fin x ≤ add x d
  /-- Adding the same number preserves the order. -/
  add_le_add : ∀ x y d : K, x ≤ y → add x d ≤ add y d
  ofRat_nonneg : ∀ q : ℚ, 0 ≤ q → 0 ≤ ofRat q

namespace Double

variable {K : Type u} [MachineArith K]

/-- A decimal literal of the source. -/
def lit (q : ℚ) : Double K := fin (MachineArith.ofRat q)

theorem lit_nonneg {q : ℚ} (nonneg : 0 ≤ q) : fin 0 ≤ (lit q : Double K) :=
  fin_le_fin.2 (MachineArith.ofRat_nonneg q nonneg)

instance : Zero (Double K) := ⟨fin 0⟩

instance : Neg (Double K) where
  neg
    | nan => nan
    | negInf => posInf
    | fin x => fin (-x)
    | posInf => negInf

instance : Add (Double K) where
  add
    | nan, _ => nan
    | _, nan => nan
    | fin x, fin y => MachineArith.add x y
    | fin _, b => b
    | a, fin _ => a
    | negInf, negInf => negInf
    | posInf, posInf => posInf
    | _, _ => nan

instance : Sub (Double K) := ⟨fun a b => a + -b⟩

/-- The infinity of the sign of `x`, NaN at zero: `x` times an infinity of sign `up`. -/
def signedInf (x : K) (up : Bool) : Double K :=
  if x = 0 then nan else if (0 < x) = (up = true) then posInf else negInf

instance : Mul (Double K) where
  mul
    | nan, _ => nan
    | _, nan => nan
    | fin x, fin y => MachineArith.mul x y
    | fin x, posInf => signedInf x true
    | fin x, negInf => signedInf x false
    | posInf, fin y => signedInf y true
    | negInf, fin y => signedInf y false
    | posInf, posInf => posInf
    | negInf, negInf => posInf
    | _, _ => negInf

instance : Div (Double K) where
  div
    | nan, _ => nan
    | _, nan => nan
    | fin x, fin y => if y = 0 then signedInf x true else MachineArith.div x y
    | fin _, _ => fin 0
    | posInf, fin y => if y = 0 then posInf else signedInf y true
    | negInf, fin y => if y = 0 then negInf else signedInf y false
    | _, _ => nan

theorem nan_add (b : Double K) : nan + b = nan := by cases b <;> rfl

/-- Accumulating a non-negative period never decreases a number. -/
theorem le_add_fin {a : Double K} {d : K} (number : a.isNaN = false) (nonneg : 0 ≤ d) :
    a ≤ a + fin d := by
  cases a with
  | nan => simp [isNaN] at number
  | fin x => exact MachineArith.le_add x d nonneg
  | negInf => exact Double.le_refl rfl
  | posInf => exact Double.le_refl rfl

/-- Accumulating the same period preserves the order. -/
theorem add_fin_le_add_fin {a b : Double K} (ordered : a ≤ b) (d : K) :
    a + fin d ≤ b + fin d := by
  cases a with
  | nan => exact absurd ordered (by simp [le_def, le, isNaN])
  | negInf =>
      have number : (b + fin d).isNaN = false := by
        cases b with
        | fin y => exact (le_number (MachineArith.add_le_add y y d (le_refl y))).2
        | nan => exact absurd ordered (not_le_nan _)
        | _ => rfl
      exact (not_lt_iff (a := (negInf : Double K)) rfl number).1 (not_lt_negInf _)
  | fin x =>
      cases b with
      | fin y => exact MachineArith.add_le_add x y d (fin_le_fin.1 ordered)
      | posInf =>
          have number : (fin x + fin d : Double K).isNaN = false :=
            (le_number (MachineArith.add_le_add x x d (le_refl x))).2
          exact (not_lt_iff (b := (posInf : Double K)) number rfl).1 (not_posInf_lt _)
      | _ => exact absurd ordered (by simp [le_def, le, lt, isNaN])
  | posInf =>
      cases b with
      | posInf => exact Double.le_refl rfl
      | _ => exact absurd ordered (by simp [le_def, le, lt, isNaN])

end Double

/-! ## Signed arithmetic -/

/-- The further laws of code that subtracts and divides: addition is commutative
with zero neutral, negation is exact and reverses the order, and a quotient of
non-negative numbers is one.  They too hold for every monotone rounding that
fixes the machine numbers and is symmetric in sign. -/
class SignedArith (K : Type u) extends MachineArith K where
  zero_add : ∀ x : K, add 0 x = Double.fin x
  add_comm : ∀ x y : K, add x y = add y x
  neg_neg : ∀ x : K, - -x = x
  neg_zero : -(0 : K) = 0
  neg_le_neg : ∀ x y : K, x ≤ y → -y ≤ -x
  div_nonneg : ∀ x y : K, 0 ≤ x → 0 < y → Double.fin 0 ≤ div x y

namespace Double

variable {K : Type u} [SignedArith K]

theorem fin_zero_add (b : Double K) : fin 0 + b = b := by
  cases b with
  | fin y => exact SignedArith.zero_add y
  | _ => rfl

protected theorem add_comm (a b : Double K) : a + b = b + a := by
  cases a with
  | fin x =>
      cases b with
      | fin y => exact SignedArith.add_comm x y
      | _ => rfl
  | _ => cases b <;> rfl

/-- Adding the same number preserves the order, also when that number is infinite. -/
theorem fin_add_le_fin_add {x y : K} (ordered : x ≤ y) {b : Double K} (number : b.isNaN = false) :
    fin x + b ≤ fin y + b := by
  cases b with
  | nan => cases number
  | fin d => exact MachineArith.add_le_add x y d ordered
  | negInf => exact Double.le_refl rfl
  | posInf => exact Double.le_refl rfl

/-- Adding a non-negative value never decreases. -/
theorem fin_le_fin_add (x : K) {b : Double K} (nonneg : fin 0 ≤ b) : fin x ≤ fin x + b := by
  cases b with
  | nan => exact absurd nonneg (not_le_nan _)
  | fin d => exact MachineArith.le_add x d (fin_le_fin.1 nonneg)
  | negInf => exact absurd nonneg (by simp [le_def, le, lt, isNaN])
  | posInf => exact le_posInf rfl

/-- Adding to the same number preserves the order. -/
theorem fin_add_mono (x : K) {a b : Double K} (ordered : a ≤ b) : fin x + a ≤ fin x + b := by
  rw [Double.add_comm _ a, Double.add_comm _ b]
  exact add_fin_le_add_fin ordered x

theorem fin_add_number (x : K) {a : Double K} (number : a.isNaN = false) :
    (fin x + a).isNaN = false :=
  (le_number (fin_add_mono x (Double.le_refl number))).1

section Between

variable {a b c : Double K} (ha : a.isNaN = false) (hb : b.isNaN = false) (x : K)

include ha hb

theorem fin_add_min_le_iff : fin x + min a b ≤ c ↔ fin x + a ≤ c ∨ fin x + b ≤ c := by
  unfold min
  split
  · rename_i below
    exact ⟨.inr, fun either => either.elim (Double.le_trans (fin_add_mono x (le_of_lt below))) id⟩
  · rename_i above
    have ordered : a ≤ b := (not_lt_iff ha hb).1 above
    exact ⟨.inl, fun either => either.elim id (Double.le_trans (fin_add_mono x ordered))⟩

theorem fin_add_max_le_iff : fin x + max a b ≤ c ↔ fin x + a ≤ c ∧ fin x + b ≤ c := by
  unfold max
  split
  · rename_i below
    exact ⟨fun right => ⟨Double.le_trans (fin_add_mono x (le_of_lt below)) right, right⟩, And.right⟩
  · rename_i above
    have ordered : b ≤ a := (not_lt_iff hb ha).1 above
    exact ⟨fun left => ⟨left, Double.le_trans (fin_add_mono x ordered) left⟩, And.left⟩

theorem le_fin_add_min_iff : c ≤ fin x + min a b ↔ c ≤ fin x + a ∧ c ≤ fin x + b := by
  unfold min
  split
  · rename_i below
    exact ⟨fun right => ⟨Double.le_trans right (fin_add_mono x (le_of_lt below)), right⟩, And.right⟩
  · rename_i above
    have ordered : a ≤ b := (not_lt_iff ha hb).1 above
    exact ⟨fun left => ⟨left, Double.le_trans left (fin_add_mono x ordered)⟩, And.left⟩

theorem le_fin_add_max_iff : c ≤ fin x + max a b ↔ c ≤ fin x + a ∨ c ≤ fin x + b := by
  unfold max
  split
  · rename_i below
    have ordered := fin_add_mono x (le_of_lt below)
    exact ⟨.inr, fun either => either.elim (fun left => Double.le_trans left ordered) id⟩
  · rename_i above
    have ordered := fin_add_mono x ((not_lt_iff hb ha).1 above)
    exact ⟨.inl, fun either => either.elim id fun right => Double.le_trans right ordered⟩

end Between

theorem neg_neg (a : Double K) : - -a = a := by
  cases a with
  | fin x => exact congrArg fin (SignedArith.neg_neg x)
  | _ => rfl

@[simp] theorem neg_nan : -(nan : Double K) = nan := rfl
@[simp] theorem neg_posInf : -(posInf : Double K) = negInf := rfl

theorem neg_fin_zero : -(fin 0 : Double K) = fin 0 := congrArg fin SignedArith.neg_zero

@[simp] theorem neg_isNaN (a : Double K) : (-a).isNaN = a.isNaN := by cases a <;> rfl

theorem neg_le_neg {a b : Double K} (ordered : a ≤ b) : -b ≤ -a := by
  obtain ⟨ha, hb⟩ := le_number ordered
  cases a with
  | nan => cases ha
  | negInf => exact le_posInf (by rw [neg_isNaN, hb])
  | fin x =>
      cases b with
      | fin y => exact fin_le_fin.2 (SignedArith.neg_le_neg x y (fin_le_fin.1 ordered))
      | posInf => exact negInf_le rfl
      | _ => simp [le_def, le, lt, isNaN] at ordered
  | posInf =>
      cases b with
      | posInf => exact Double.le_refl rfl
      | _ => simp [le_def, le, lt, isNaN] at ordered

theorem neg_le_neg_iff {a b : Double K} : -b ≤ -a ↔ a ≤ b := by
  refine ⟨fun ordered => ?_, neg_le_neg⟩
  have back := neg_le_neg ordered
  rwa [neg_neg, neg_neg] at back

/-- Also of numbers and NaN. -/
theorem neg_lt_neg_iff {a b : Double K} : -b < -a ↔ a < b := by
  cases ha : a.isNaN with
  | true => simp [isNaN_iff.1 ha]
  | false =>
      cases hb : b.isNaN with
      | true => simp [isNaN_iff.1 hb]
      | false =>
          rw [← not_iff_not, not_lt_iff (by rw [neg_isNaN, ha]) (by rw [neg_isNaN, hb]),
            not_lt_iff hb ha, neg_le_neg_iff]

/-- Of numbers and NaN alike. -/
theorem max_neg_neg (a b : Double K) : max (-a) (-b) = -min a b := by
  unfold max min
  simp only [neg_lt_neg_iff]
  split <;> rfl

theorem neg_nonpos {a : Double K} (nonneg : fin 0 ≤ a) : -a ≤ fin 0 := by
  have below := neg_le_neg nonneg
  rwa [neg_fin_zero] at below

theorem neg_le_self {a : Double K} (nonneg : fin 0 ≤ a) : -a ≤ a :=
  Double.le_trans (neg_nonpos nonneg) nonneg

theorem neg_nonneg {a : Double K} (nonpos : a ≤ fin 0) : fin 0 ≤ -a := by
  have above := neg_le_neg nonpos
  rwa [neg_fin_zero] at above

theorem nonneg_of_neg_le_self {a : Double K} (around : -a ≤ a) : fin 0 ≤ a := by
  rcases Double.le_total (a := fin 0) rfl (le_number around).2 with above | below
  · exact above
  · exact Double.le_trans (neg_nonneg below) around

theorem abs_of_nonpos {a : Double K} (nonpos : a ≤ fin 0) : abs a = -a := by
  cases a with
  | nan | negInf => rfl
  | posInf => simp [le_def, le, lt, isNaN] at nonpos
  | fin x =>
      rcases (fin_le_fin.1 nonpos).lt_or_eq with negative | rfl
      · exact congrArg fin (if_pos negative)
      · exact (abs_of_nonneg (fin_le_fin.2 le_rfl)).trans neg_fin_zero.symm

theorem abs_le {a b : Double K} (low : -b ≤ a) (high : a ≤ b) : abs a ≤ b := by
  rcases Double.le_total (a := fin 0) rfl (le_number high).1 with above | below
  · rwa [abs_of_nonneg above]
  · rw [abs_of_nonpos below, ← neg_neg b]
    exact neg_le_neg low

/-- Subtracting a non-negative value never increases. -/
theorem fin_sub_le (x : K) {b : Double K} (nonneg : fin 0 ≤ b) : fin x - b ≤ fin x := by
  have below := fin_add_mono x (neg_nonpos nonneg)
  rwa [Double.add_comm (fin x) (fin 0), fin_zero_add] at below

theorem fin_zero_sub (b : Double K) : fin 0 - b = -b := fin_zero_add (-b)

theorem fin_div_nonneg {x : K} (nonneg : 0 ≤ x) {b : Double K} (positive : fin 0 < b) :
    fin 0 ≤ fin x / b := by
  cases b with
  | fin y =>
      have above : 0 < y := by simpa [lt_def, lt] using positive
      have quotient : fin x / fin y = MachineArith.div x y := if_neg above.ne'
      rw [quotient]
      exact SignedArith.div_nonneg x y nonneg above
  | posInf => exact Double.le_refl rfl
  | _ => simp [lt_def, lt] at positive

/-- Adding to the same number preserves the order, also when that number is infinite. -/
theorem add_fin_mono {a : Double K} (number : a.isNaN = false) {x y : K} (ordered : x ≤ y) :
    a + fin x ≤ a + fin y := by
  rw [Double.add_comm a, Double.add_comm a]
  exact fin_add_le_fin_add ordered number

theorem add_fin_zero (a : Double K) : a + fin 0 = a := by
  rw [Double.add_comm, fin_zero_add]

end Double

/-! ## Scaled arithmetic -/

/-- The laws of code that scales by a factor between -1 and 1: multiplication is
commutative, monotone on one side of zero and symmetric in sign, and literals keep
their order.  They hold for the same roundings. -/
class ScaledArith (K : Type u) extends SignedArith K where
  ofRat_mono : ∀ q r : ℚ, q ≤ r → ofRat q ≤ ofRat r
  ofRat_neg_one : ofRat (-1) = -ofRat 1
  mul_comm : ∀ x y : K, mul x y = mul y x
  mul_one : ∀ x : K, mul x (ofRat 1) = Double.fin x
  mul_zero : ∀ x : K, mul x 0 = Double.fin 0
  mul_neg : ∀ x y : K, mul x (-y) = -mul x y
  mul_le_mul : ∀ x y z : K, 0 ≤ x → y ≤ z → mul x y ≤ mul x z

namespace Double

variable {K : Type u} [ScaledArith K]

theorem fin_mul_fin (x y : K) : (fin x * fin y : Double K) = MachineArith.mul x y := rfl

/-- The absolute value of a finite number. -/
def absFin (x : K) : K := if x < 0 then -x else x

theorem absFin_cases (x : K) : 0 ≤ absFin x ∧ (x = absFin x ∨ x = -absFin x) := by
  unfold absFin
  split
  · rename_i below
    have above := SignedArith.neg_le_neg x 0 below.le
    rw [SignedArith.neg_zero] at above
    exact ⟨above, .inr (SignedArith.neg_neg x).symm⟩
  · rename_i above
    exact ⟨not_lt.1 above, .inl rfl⟩

theorem absFin_of_nonneg {x : K} (nonneg : 0 ≤ x) : absFin x = x := if_neg (not_lt.2 nonneg)

theorem absFin_neg (x : K) : absFin (-x) = absFin x := by
  rcases le_total 0 x with above | below
  · have opposite := SignedArith.neg_le_neg 0 x above
    rw [SignedArith.neg_zero] at opposite
    rw [absFin_of_nonneg above]
    rcases opposite.lt_or_eq with negative | zero
    · rw [absFin, if_pos negative, SignedArith.neg_neg]
    · have same : x = 0 := by rw [← SignedArith.neg_neg x, zero, SignedArith.neg_zero]
      rw [zero, same, absFin_of_nonneg (le_refl (0 : K))]
  · have opposite := SignedArith.neg_le_neg x 0 below
    rw [SignedArith.neg_zero] at opposite
    rw [absFin_of_nonneg opposite]
    rcases below.lt_or_eq with negative | zero
    · rw [absFin, if_pos negative]
    · rw [zero, absFin_of_nonneg (le_refl (0 : K)), SignedArith.neg_zero]

theorem abs_neg (a : Double K) : abs (-a) = abs a := by
  cases a with
  | fin x => exact congrArg fin (absFin_neg x)
  | _ => rfl

theorem abs_isFinite (a : Double K) : (abs a).isFinite = a.isFinite := by cases a <;> rfl

/-- A finite product has finite factors. -/
theorem finite_of_mul {a b : Double K} (finite : (a * b).isFinite = true) :
    ∃ x y, a = fin x ∧ b = fin y := by
  have inf : ∀ (x : K) (up : Bool), (signedInf x up).isFinite = false := by
    intro x up
    unfold signedInf
    repeat' split
    all_goals rfl
  cases a with
  | nan => cases finite
  | fin x =>
      cases b with
      | fin y => exact ⟨x, y, rfl, rfl⟩
      | nan => cases finite
      | negInf => cases (inf x false).symm.trans finite
      | posInf => cases (inf x true).symm.trans finite
  | negInf =>
      cases b with
      | fin y => cases (inf y false).symm.trans finite
      | _ => cases finite
  | posInf =>
      cases b with
      | fin y => cases (inf y true).symm.trans finite
      | _ => cases finite

/-- A product of finite numbers is one of the two signs of the product of the absolute
values. -/
theorem mul_absFin (x y : K) :
    (fin x * fin y : Double K) = fin (absFin x) * fin (absFin y) ∨
      (fin x * fin y : Double K) = -(fin (absFin x) * fin (absFin y)) := by
  have neg_left : ∀ a b : K, (fin (-a) * fin b : Double K) = -(fin a * fin b) := by
    intro a b
    rw [fin_mul_fin, fin_mul_fin, ScaledArith.mul_comm, ScaledArith.mul_neg,
      ScaledArith.mul_comm b a]
  have neg_right : ∀ a b : K, (fin a * fin (-b) : Double K) = -(fin a * fin b) :=
    fun a b => ScaledArith.mul_neg a b
  have left := (absFin_cases x).2
  have right := (absFin_cases y).2
  generalize absFin x = a at left
  generalize absFin y = b at right
  rcases left with rfl | rfl <;> rcases right with rfl | rfl
  · exact .inl rfl
  · exact .inr (neg_right _ _)
  · exact .inr (neg_left _ _)
  · rw [neg_left, neg_right, neg_neg]
    exact .inl rfl

theorem mul_nonneg {x y : K} (hx : 0 ≤ x) (hy : 0 ≤ y) : fin 0 ≤ (fin x * fin y : Double K) := by
  have grows := ScaledArith.mul_le_mul x 0 y hx hy
  rwa [ScaledArith.mul_zero] at grows

/-- A larger absolute value of one factor bounds the product. -/
theorem mul_between {x u : K} (smaller : absFin x ≤ absFin u) (s : K) :
    -abs (fin u * fin s : Double K) ≤ fin x * fin s ∧
      (fin x * fin s : Double K) ≤ abs (fin u * fin s) := by
  have larger : (fin (absFin u) * fin (absFin s) : Double K) = abs (fin u * fin s) := by
    have nonneg : fin 0 ≤ (fin (absFin u) * fin (absFin s) : Double K) :=
      mul_nonneg (absFin_cases u).1 (absFin_cases s).1
    rcases mul_absFin u s with same | same
    · rw [same, abs_of_nonneg nonneg]
    · rw [same, abs_neg, abs_of_nonneg nonneg]
  have grows : (fin (absFin x) * fin (absFin s) : Double K) ≤ abs (fin u * fin s) := by
    rw [← larger, fin_mul_fin, fin_mul_fin, ScaledArith.mul_comm _ (absFin s),
      ScaledArith.mul_comm _ (absFin s)]
    exact ScaledArith.mul_le_mul _ _ _ (absFin_cases s).1 smaller
  have nonneg : fin 0 ≤ (fin (absFin x) * fin (absFin s) : Double K) :=
    mul_nonneg (absFin_cases x).1 (absFin_cases s).1
  rcases mul_absFin x s with same | same
  · rw [same]
    exact ⟨Double.le_trans (neg_le_neg grows) (neg_le_self nonneg), grows⟩
  · rw [same]
    exact ⟨neg_le_neg grows, Double.le_trans (neg_le_self nonneg) grows⟩

/-- A factor between -1 and 1 does not enlarge. -/
theorem mul_unit {w : K} (above : MachineArith.ofRat (-1) ≤ w) (below : w ≤ MachineArith.ofRat 1)
    (u : K) : ∃ x, (fin u * fin w : Double K) = fin x ∧ absFin x ≤ absFin u := by
  obtain ⟨nonneg, sign⟩ := absFin_cases u
  have upper := ScaledArith.mul_le_mul (absFin u) w _ nonneg below
  have lower := ScaledArith.mul_le_mul (absFin u) _ w nonneg above
  rw [ScaledArith.mul_one] at upper
  rw [ScaledArith.ofRat_neg_one, ScaledArith.mul_neg, ScaledArith.mul_one] at lower
  obtain ⟨x, product⟩ := exists_fin (x := -absFin u) (y := absFin u) lower upper
  rw [product] at upper lower
  have bounded : absFin x ≤ absFin u := by
    rcases (absFin_cases x).2 with same | same
    · rw [← same]
      exact fin_le_fin.1 upper
    · have flipped := SignedArith.neg_le_neg _ _ (fin_le_fin.1 lower)
      rwa [SignedArith.neg_neg, same, SignedArith.neg_neg] at flipped
  rcases sign with same | same
  · exact ⟨x, by rw [same]; exact product, bounded⟩
  · refine ⟨-x, ?_, (absFin_neg x).trans_le bounded⟩
    rw [same, fin_mul_fin, ScaledArith.mul_comm, ScaledArith.mul_neg, ScaledArith.mul_comm w]
    exact congrArg Neg.neg product

end Double

/-! ## Exact arithmetic -/

section Exact

variable (K : Type u) [Field K] [LinearOrder K] [IsStrictOrderedRing K]

/-- An ordered field with its exact operations is a machine arithmetic. -/
@[reducible] def exactArith : MachineArith K where
  ofRat q := (q : K)
  add x y := .fin (x + y)
  mul x y := .fin (x * y)
  div x y := .fin (x / y)
  le_add _ _ nonneg := Double.fin_le_fin.2 (le_add_of_nonneg_right nonneg)
  add_le_add _ _ d ordered := Double.fin_le_fin.2 (add_le_add_left ordered d)
  ofRat_nonneg _ nonneg := Rat.cast_nonneg.2 nonneg

/-- Its signs are exact as well. -/
@[reducible] def exactSignedArith : SignedArith K where
  toMachineArith := exactArith K
  zero_add x := congrArg Double.fin (zero_add x)
  add_comm x y := congrArg Double.fin (add_comm x y)
  neg_neg := neg_neg
  neg_zero := neg_zero
  neg_le_neg _ _ ordered := neg_le_neg ordered
  div_nonneg _ _ nonneg positive := Double.fin_le_fin.2 (div_nonneg nonneg positive.le)

/-- So are its products. -/
@[reducible] def exactScaledArith : ScaledArith K where
  toSignedArith := exactSignedArith K
  ofRat_mono _ _ ordered := Rat.cast_le.2 ordered
  ofRat_neg_one := by
    show ((-1 : ℚ) : K) = -((1 : ℚ) : K)
    norm_num
  mul_comm x y := congrArg Double.fin (mul_comm x y)
  mul_one x := by
    show Double.fin (x * ((1 : ℚ) : K)) = Double.fin x
    rw [Rat.cast_one, mul_one]
  mul_zero x := congrArg Double.fin (mul_zero x)
  mul_neg x y := congrArg Double.fin (mul_neg x y)
  mul_le_mul _ _ _ nonneg ordered := Double.fin_le_fin.2 (mul_le_mul_of_nonneg_left ordered nonneg)

end Exact

instance : MachineArith ℚ := exactArith ℚ

instance : SignedArith ℚ := exactSignedArith ℚ

instance : ScaledArith ℚ := exactScaledArith ℚ

end FrankaRos.Theory
