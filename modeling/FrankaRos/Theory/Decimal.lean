/-
# Theory.Decimal -- the number at the beginning of a text

`std::stoi` and `std::stoul` skip white space, take a sign and the longest run of digits
behind it, and leave the rest of the text alone.  They throw `std::invalid_argument` when
there is no digit and `std::out_of_range` when the number does not fit.  `stoul` negates a
number with a minus sign modulo the word; only its magnitude has to fit.

A text of digits and nothing else is `IsDecimal`; `leadingInt_decimal` is the number `stoi`
finds in it.
-/
import Mathlib.Data.List.TakeWhile

namespace FrankaRos.Theory

set_option autoImplicit false

/-- The two exceptions of a conversion. -/
inductive StdException where
  | invalidArgument
  | outOfRange
  deriving DecidableEq, Repr

namespace Decimal

/-- `std::isspace` in the `C` locale. -/
def isSpace (c : Char) : Bool :=
  c == ' ' || c == '\t' || c == '\n' || c == '\x0b' || c == '\x0c' || c == '\r'

/-- An optional sign, and whether it is a minus. -/
def sign : List Char → Bool × List Char
  | [] => (false, [])
  | c :: text =>
      if c == '-' then (true, text) else if c == '+' then (false, text) else (false, c :: text)

/-- The value of a run of digits. -/
def ofDigits (digits : List Char) : Nat :=
  digits.foldl (fun value c => 10 * value + (c.toNat - 48)) 0

/-- The sign and the magnitude of the number a text begins with. -/
def number (text : List Char) : Option (Bool × Nat) :=
  let signed := sign (text.dropWhile isSpace)
  let digits := signed.2.takeWhile Char.isDigit
  if digits = [] then none else some (signed.1, ofDigits digits)

/-- The number a text begins with. -/
def leadingInt (text : List Char) : Option ℤ :=
  (number text).map fun found => if found.1 then -(found.2 : ℤ) else found.2

end Decimal

open Decimal

/-- The range of `int`. -/
def IsInt (value : ℤ) : Prop := -2147483648 ≤ value ∧ value ≤ 2147483647

instance (value : ℤ) : Decidable (IsInt value) := inferInstanceAs (Decidable (_ ∧ _))

/-- One more than the largest `unsigned long`. -/
def ulongSize : Nat := 18446744073709551616

/-- `std::stoi`. -/
def stoi (text : List Char) : Except StdException ℤ :=
  match leadingInt text with
  | none => .error .invalidArgument
  | some value => if IsInt value then .ok value else .error .outOfRange

/-- `std::stoul`. -/
def stoul (text : List Char) : Except StdException Nat :=
  match number text with
  | none => .error .invalidArgument
  | some (negative, magnitude) =>
      if magnitude < ulongSize then
        .ok (if negative then (ulongSize - magnitude) % ulongSize else magnitude)
      else .error .outOfRange

theorem stoi_eq_ok_iff {text : List Char} {value : ℤ} :
    stoi text = .ok value ↔ leadingInt text = some value ∧ IsInt value := by
  unfold stoi
  cases leadingInt text with
  | none => simp
  | some found =>
      by_cases fits : IsInt found
      · simp only [fits, if_true, Except.ok.injEq, Option.some.injEq]
        exact ⟨fun same => ⟨same, same ▸ fits⟩, fun same => same.1⟩
      · simp only [fits, if_false, Option.some.injEq, reduceCtorEq, false_iff]
        rintro ⟨rfl, inside⟩
        exact fits inside

theorem stoi_eq_outOfRange_iff {text : List Char} :
    stoi text = .error .outOfRange ↔ ∃ value, leadingInt text = some value ∧ ¬ IsInt value := by
  unfold stoi
  cases leadingInt text with
  | none => simp
  | some found => by_cases fits : IsInt found <;> simp [fits]

/-! ## Decimal numbers -/

/-- A run of digits and nothing else. -/
def IsDecimal (text : List Char) : Prop := text ≠ [] ∧ ∀ c ∈ text, c.isDigit = true

instance (text : List Char) : Decidable (IsDecimal text) :=
  decidable_of_iff (text.isEmpty = false ∧ text.all Char.isDigit = true)
    (and_congr List.isEmpty_eq_false_iff List.all_eq_true)

theorem IsDecimal.not_mem {text : List Char} (decimal : IsDecimal text) {c : Char}
    (other : c.isDigit = false) : c ∉ text := by
  intro member
  rw [decimal.2 c member] at other
  cases other

namespace Decimal

/-- A digit is neither a space nor a sign. -/
theorem digit_plain {c : Char} (digit : c.isDigit = true) :
    isSpace c = false ∧ (c == '-') = false ∧ (c == '+') = false := by
  have other (d : Char) (none : d.isDigit = false) : (c == d) = false :=
    beq_eq_false_iff_ne.2 fun same => by rw [same, none] at digit; cases digit
  refine ⟨?_, other '-' (by decide), other '+' (by decide)⟩
  simp only [isSpace, other ' ' (by decide), other '\t' (by decide), other '\n' (by decide),
    other '\x0b' (by decide), other '\x0c' (by decide), other '\r' (by decide), Bool.or_self]

theorem number_decimal {text : List Char} (decimal : IsDecimal text) :
    number text = some (false, ofDigits text) := by
  obtain ⟨more, digits⟩ := decimal
  cases text with
  | nil => exact absurd rfl more
  | cons c text =>
      obtain ⟨space, minus, plus⟩ := digit_plain (digits c List.mem_cons_self)
      have kept : (c :: text).dropWhile isSpace = c :: text :=
        List.dropWhile_cons_of_neg (by simp [space])
      have signed : sign (c :: text) = (false, c :: text) := by simp [sign, minus, plus]
      simp only [number, kept, signed, List.takeWhile_eq_self_iff.2 digits, more, if_false]

end Decimal

/-- A decimal number is read as it stands. -/
theorem leadingInt_decimal {text : List Char} (decimal : IsDecimal text) :
    leadingInt text = some (ofDigits text : ℤ) := by
  simp [leadingInt, number_decimal decimal]

end FrankaRos.Theory
