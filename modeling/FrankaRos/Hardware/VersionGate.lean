/-
# Hardware.VersionGate -- which version strings are let through

A version is meant to be three decimal numbers, the first of them the supported one
(`Supported`).  The parser reads the fields with `std::getline`, so a dot at the end is not
seen, and the numbers with `std::stoi`, so what surrounds them is not seen either:
`checkVersion_passed_iff` says what passes.  A version of another number of fields, or with
a field that has no number, leaves `on_init` by an exception.
-/
import FrankaRos.Hardware.OnInit
import Mathlib.Data.List.Basic

namespace FrankaRos.Hardware

open FrankaRos.Theory Decimal

set_option autoImplicit false

/-! ## The arguments of a tuple -/

/-- A text that `stoi` accepts. -/
def Accepts (text : List Char) : Prop := ∃ value, leadingInt text = some value ∧ IsInt value

/-- A text with a number that is not an `int`. -/
def Exceeds (text : List Char) : Prop := ∃ value, leadingInt text = some value ∧ ¬ IsInt value

/-- In the order of evaluation, the first text that is not accepted has a number that is not
an `int`. -/
def ExceedsFirst (text : VersionPart → List Char) (order : List VersionPart) : Prop :=
  ∃ before part after, order = before ++ part :: after ∧
    (∀ earlier ∈ before, Accepts (text earlier)) ∧ Exceeds (text part)

theorem evaluateArguments_ok {text : VersionPart → List Char} {order : List VersionPart}
    {values : VersionPart → ℤ} (read : evaluateArguments text order = .ok values) :
    ∀ part ∈ order, leadingInt (text part) = some (values part) ∧ IsInt (values part) := by
  induction order generalizing values with
  | nil => simp
  | cons first order ih =>
      rw [evaluateArguments] at read
      cases number : stoi (text first) with
      | error e => rw [number] at read; cases read
      | ok value =>
          cases rest : evaluateArguments text order with
          | error e => rw [number, rest] at read; cases read
          | ok found =>
              rw [number, rest] at read
              obtain rfl := Except.ok.inj read
              intro part member
              by_cases same : part = first
              · subst same
                simpa using stoi_eq_ok_iff.1 number
              · rw [Function.update_of_ne same]
                exact ih rest part ((List.mem_cons.1 member).resolve_left same)

theorem evaluateArguments_total {text : VersionPart → List Char} {order : List VersionPart}
    (accepts : ∀ part ∈ order, Accepts (text part)) :
    ∃ values, evaluateArguments text order = .ok values := by
  induction order with
  | nil => exact ⟨_, rfl⟩
  | cons first order ih =>
      rw [List.forall_mem_cons] at accepts
      obtain ⟨value, number⟩ := accepts.1
      obtain ⟨values, rest⟩ := ih accepts.2
      rw [evaluateArguments, stoi_eq_ok_iff.2 number, rest]
      exact ⟨_, rfl⟩

theorem exceedsFirst_cons {text : VersionPart → List Char} {first : VersionPart}
    {order : List VersionPart} :
    ExceedsFirst text (first :: order) ↔
      Exceeds (text first) ∨ (Accepts (text first) ∧ ExceedsFirst text order) := by
  constructor
  · rintro ⟨before, part, after, split, earlier, exceeds⟩
    cases before with
    | nil =>
        obtain ⟨rfl, rfl⟩ := List.cons.inj split
        exact .inl exceeds
    | cons _ before =>
        obtain ⟨rfl, rfl⟩ := List.cons.inj split
        obtain ⟨accepts, earlier⟩ := List.forall_mem_cons.1 earlier
        exact .inr ⟨accepts, before, part, after, rfl, earlier, exceeds⟩
  · rintro (exceeds | ⟨accepts, before, part, after, rfl, earlier, exceeds⟩)
    · exact ⟨[], first, order, rfl, by simp, exceeds⟩
    · exact ⟨first :: before, part, after, rfl, List.forall_mem_cons.2 ⟨accepts, earlier⟩, exceeds⟩

/-- The arguments throw `std::out_of_range` exactly when the first that is not accepted
exceeds the range of `int`. -/
theorem evaluateArguments_outOfRange_iff {text : VersionPart → List Char}
    {order : List VersionPart} :
    evaluateArguments text order = .error .outOfRange ↔ ExceedsFirst text order := by
  induction order with
  | nil => simp [evaluateArguments, ExceedsFirst]
  | cons first order ih =>
      rw [exceedsFirst_cons, ← ih, evaluateArguments]
      cases number : stoi (text first) with
      | ok value =>
          have accepts : Accepts (text first) := ⟨value, stoi_eq_ok_iff.1 number⟩
          have fits : ¬ Exceeds (text first) := by
            intro exceeds
            rw [stoi_eq_outOfRange_iff.2 exceeds] at number
            cases number
          cases evaluateArguments text order <;> simp [accepts, fits]
      | error e =>
          have refused : ¬ Accepts (text first) := by
            rintro ⟨value, accepted⟩
            rw [stoi_eq_ok_iff.2 accepted] at number
            cases number
          have thrown : e = .outOfRange ↔ Exceeds (text first) := by
            rw [Exceeds, ← stoi_eq_outOfRange_iff, number, Except.error.injEq]
          simp [refused, thrown]

namespace EvaluationOrder

theorem mem_parts (order : EvaluationOrder) (part : VersionPart) : part ∈ order.parts := by
  rw [order.all.mem_iff]
  cases part <;> simp

end EvaluationOrder

/-! ## What passes -/

section Check

variable {order : EvaluationOrder} {info : HardwareInfo} {version : String}
  {first second third : List Char}

theorem checkVersion_eq (present : info.hardwareParameters kVersionName = some version)
    (parts : getlines '.' version.toList = [first, second, third]) :
    checkVersion order info =
      match evaluateArguments (versionParts first second third) order.parts with
      | .ok values => if values .major = kSupportedControlInterfaceMajor then .passed else .error
      | .error .outOfRange => .error
      | .error .invalidArgument => .escaped .invalidArgument := by
  have parsed : parseVersion order version.toList =
      evaluateArguments (versionParts first second third) order.parts := by
    rw [parseVersion, parts]
  rw [← parsed]
  unfold checkVersion
  generalize info.hardwareParameters kVersionName = found at present
  subst present
  rfl

/-- A version of three fields passes if they have numbers that fit, the first of them the
supported one. -/
theorem passed_of_parts_iff (present : info.hardwareParameters kVersionName = some version)
    (parts : getlines '.' version.toList = [first, second, third]) :
    checkVersion order info = .passed ↔
      leadingInt first = some kSupportedControlInterfaceMajor ∧ Accepts second ∧
        Accepts third := by
  rw [checkVersion_eq present parts]
  constructor
  · intro passed
    split at passed
    · rename_i values read
      split at passed
      · rename_i supported
        have all := fun part => evaluateArguments_ok read part (order.mem_parts part)
        refine ⟨?_, ⟨_, all .minor⟩, ⟨_, all .patch⟩⟩
        rw [← supported]
        exact (all .major).1
      · cases passed
    · cases passed
    · cases passed
  · rintro ⟨major, minor, patch⟩
    have accepts : ∀ part ∈ order.parts, Accepts (versionParts first second third part) := by
      rintro (_ | _ | _) -
      · exact ⟨_, major, by decide⟩
      · exact minor
      · exact patch
    obtain ⟨values, read⟩ := evaluateArguments_total accepts
    have found := (evaluateArguments_ok read .major (order.mem_parts .major)).1
    have supported := Option.some.inj (found.symm.trans major)
    rw [read]
    exact if_pos supported

/-- It is refused with an error if all have numbers that fit, the first of them another than
the supported one, or if the first that is read in vain has a number that does not fit. -/
theorem error_of_parts_iff (present : info.hardwareParameters kVersionName = some version)
    (parts : getlines '.' version.toList = [first, second, third]) :
    checkVersion order info = .error ↔
      ((∀ part, Accepts (versionParts first second third part)) ∧
          leadingInt first ≠ some kSupportedControlInterfaceMajor) ∨
        ExceedsFirst (versionParts first second third) order.parts := by
  rw [checkVersion_eq present parts, ← evaluateArguments_outOfRange_iff]
  cases read : evaluateArguments (versionParts first second third) order.parts with
  | error e =>
      have refused : ¬ ∀ part, Accepts (versionParts first second third part) := fun accepts => by
        obtain ⟨values, total⟩ := evaluateArguments_total fun part (_ : part ∈ order.parts) =>
          accepts part
        rw [total] at read
        cases read
      cases e <;> simp [refused]
  | ok values =>
      have all := fun part => evaluateArguments_ok read part (order.mem_parts part)
      have accepts : ∀ part, Accepts (versionParts first second third part) :=
        fun part => ⟨_, all part⟩
      have major : leadingInt first = some (values .major) := (all .major).1
      by_cases supported : values .major = kSupportedControlInterfaceMajor <;>
        simp [accepts, major, supported]

/-- A version of another number of fields is not refused, it throws. -/
theorem escaped_of_not_parts (present : info.hardwareParameters kVersionName = some version)
    (other : (getlines '.' version.toList).length ≠ 3) :
    checkVersion order info = .escaped .invalidArgument := by
  have thrown : parseVersion order version.toList = .error .invalidArgument := by
    unfold parseVersion
    split
    · rename_i parts
      rw [parts] at other
      exact (other rfl).elim
    · rfl
  simp only [checkVersion, present, thrown]

end Check

theorem getlines_three_iff {text first second third : List Char} :
    getlines '.' text = [first, second, third] ↔
      (∀ field ∈ [first, second, third], '.' ∉ field) ∧
        (text = terminated '.' [first, second, third] ∨
          third ≠ [] ∧ text = terminated '.' [first, second] ++ third) := by
  rw [getlines_eq_iff]
  refine and_congr_right fun _ => or_congr_right ⟨?_, ?_⟩
  · rintro ⟨before, last, split, more, rfl⟩
    have same : [first, second] ++ [third] = before ++ [last] := split
    obtain ⟨rfl, ends⟩ := List.append_inj' same rfl
    obtain rfl := List.singleton_inj.1 ends
    exact ⟨more, rfl⟩
  · rintro ⟨more, rfl⟩
    exact ⟨[first, second], third, rfl, more, rfl⟩

/-- All versions that pass: three fields with leading numbers, whatever surrounds them, and
perhaps one more dot. -/
theorem checkVersion_passed_iff {order : EvaluationOrder} {info : HardwareInfo} :
    checkVersion order info = .passed ↔
      ∃ version, info.hardwareParameters kVersionName = some version ∧
        ∃ first second third, ((∀ field ∈ [first, second, third], '.' ∉ field) ∧
            (version.toList = terminated '.' [first, second, third] ∨
              third ≠ [] ∧ version.toList = terminated '.' [first, second] ++ third)) ∧
          leadingInt first = some kSupportedControlInterfaceMajor ∧ Accepts second ∧
            Accepts third := by
  simp only [← getlines_three_iff]
  cases present : info.hardwareParameters kVersionName with
  | none => simp [checkVersion, present]
  | some version =>
      constructor
      · intro passed
        by_cases three : (getlines '.' version.toList).length = 3
        · obtain ⟨first, second, third, parts⟩ := List.length_eq_three.1 three
          exact ⟨version, rfl, first, second, third, parts,
            (passed_of_parts_iff present parts).1 passed⟩
        · rw [escaped_of_not_parts present three] at passed
          cases passed
      · rintro ⟨_, same, first, second, third, parts, numbers⟩
        obtain rfl := Option.some.inj same
        exact (passed_of_parts_iff present parts).2 numbers

/-! ## What should pass -/

/-- Three decimal numbers that fit, separated by dots, the first of them the supported one. -/
def Supported (version : List Char) : Prop :=
  ∃ first second third, version = first ++ '.' :: (second ++ '.' :: third) ∧
    (IsDecimal first ∧ IsInt (ofDigits first)) ∧ (IsDecimal second ∧ IsInt (ofDigits second)) ∧
      (IsDecimal third ∧ IsInt (ofDigits third)) ∧
        (ofDigits first : ℤ) = kSupportedControlInterfaceMajor

/-- `on_init` goes on behind the version check exactly for the supported versions, and
returns an error for every other and without a version. -/
structure VersionGate (order : EvaluationOrder) (info : HardwareInfo) : Prop where
  proceeds : checkVersion order info = .passed ↔
    ∃ version, info.hardwareParameters kVersionName = some version ∧ Supported version.toList
  refuses : ¬ (∃ version, info.hardwareParameters kVersionName = some version ∧
      Supported version.toList) → ∀ around, onInit order around info = .error

/-- A version that is refused by `return`: three fields of which all have numbers that fit,
the first of them another than the supported one, or of which the first that is read in vain
has a number that does not fit. -/
def Refused (order : EvaluationOrder) (version : List Char) : Prop :=
  ∃ first second third, getlines '.' version = [first, second, third] ∧
    (((∀ part, Accepts (versionParts first second third part)) ∧
        leadingInt first ≠ some kSupportedControlInterfaceMajor) ∨
      ExceedsFirst (versionParts first second third) order.parts)

theorem accepts_decimal {text : List Char} (decimal : IsDecimal text)
    (fits : IsInt (ofDigits text)) : Accepts text :=
  ⟨_, leadingInt_decimal decimal, fits⟩

theorem Supported.passed {order : EvaluationOrder} {info : HardwareInfo} {version : String}
    (present : info.hardwareParameters kVersionName = some version)
    (supported : Supported version.toList) : checkVersion order info = .passed := by
  obtain ⟨first, second, third, text, major, minor, patch, same⟩ := supported
  have parts : getlines '.' version.toList = [first, second, third] := by
    have dot : '.'.isDigit = false := by decide
    rw [text, getlines_of_getline (getline_append (major.1.not_mem dot) _),
      getlines_of_getline (getline_append (minor.1.not_mem dot) _),
      getlines_of_getline (getline_last (patch.1.not_mem dot) patch.1.1), getlines_nil]
  refine (passed_of_parts_iff present parts).2 ⟨?_, accepts_decimal minor.1 minor.2,
    accepts_decimal patch.1 patch.2⟩
  rw [leadingInt_decimal major.1, same]

theorem checkVersion_error_iff {order : EvaluationOrder} {info : HardwareInfo} {version : String}
    (present : info.hardwareParameters kVersionName = some version) :
    checkVersion order info = .error ↔ Refused order version.toList := by
  constructor
  · intro refused
    by_cases three : (getlines '.' version.toList).length = 3
    · obtain ⟨first, second, third, parts⟩ := List.length_eq_three.1 three
      exact ⟨first, second, third, parts, (error_of_parts_iff present parts).1 refused⟩
    · rw [escaped_of_not_parts present three] at refused
      cases refused
  · rintro ⟨first, second, third, parts, refused⟩
    exact (error_of_parts_iff present parts).2 refused

theorem onInit_error_of_checkVersion {order : EvaluationOrder} {info : HardwareInfo}
    (refused : checkVersion order info = .error) (around : InitSurroundings) :
    onInit order around info = .error := by
  rw [onInit, refused]
  exact ite_self _

/-- Surroundings in which nothing but the description can fail. -/
def workingSurroundings : InitSurroundings := ⟨true, true, "fr3", fun _ => .connected⟩

theorem onInit_escaped {order : EvaluationOrder} {info : HardwareInfo} {e : StdException}
    (thrown : checkVersion order info = .escaped e) {around : InitSurroundings}
    (base : around.baseSucceeds = true) : onInit order around info = .escaped := by
  simp [onInit, thrown, base]

/-- The gate is as it should be exactly without a version, for the supported versions and
for those that the parser refuses without throwing `std::invalid_argument`. -/
theorem versionGate_iff (order : EvaluationOrder) (info : HardwareInfo) :
    VersionGate order info ↔
      ∀ version, info.hardwareParameters kVersionName = some version →
        Supported version.toList ∨ Refused order version.toList := by
  constructor
  · intro gate version present
    refine or_iff_not_imp_left.2 fun unsupported => ?_
    have none : ¬ ∃ version', info.hardwareParameters kVersionName = some version' ∧
        Supported version'.toList := by
      rintro ⟨version', present', supported⟩
      obtain rfl := Option.some.inj (present.symm.trans present')
      exact unsupported supported
    rw [← checkVersion_error_iff present]
    cases check : checkVersion order info with
    | error => rfl
    | passed => exact (none (gate.proceeds.1 check)).elim
    | escaped e =>
        have error := gate.refuses none workingSurroundings
        rw [onInit_escaped check rfl] at error
        cases error
  · intro sound
    cases present : info.hardwareParameters kVersionName with
    | none =>
        have check : checkVersion order info = .error := by rw [checkVersion, present]
        exact ⟨by simp [check, present], fun _ => onInit_error_of_checkVersion check⟩
    | some version =>
        rcases sound version present with supported | refused
        · have check : checkVersion order info = .passed := supported.passed present
          exact ⟨⟨fun _ => ⟨version, present, supported⟩, fun _ => check⟩,
            fun none => (none ⟨version, present, supported⟩).elim⟩
        · have check := (checkVersion_error_iff present).2 refused
          refine ⟨⟨fun passed => ?_, ?_⟩, fun _ => onInit_error_of_checkVersion check⟩
          · rw [check] at passed
            cases passed
          · rintro ⟨version', present', supported⟩
            exact supported.passed present'

/-! ## A version of two fields -/

/-- A description of an arm with the given version. -/
def describedAs (version : String) : HardwareInfo where
  hardwareParameters key := if key = kVersionName then some version else some "fr3"
  joints := []
  gpios := []

def leftToRight : EvaluationOrder := ⟨[.major, .minor, .patch], .refl _⟩

theorem not_versionGate_two_fields : ¬ VersionGate leftToRight (describedAs "1.0") := by
  intro gate
  have present : (describedAs "1.0").hardwareParameters kVersionName = some "1.0" := rfl
  have fields : getlines '.' "1.0".toList = [['1'], ['0']] := by
    have text : "1.0".toList = ['1'] ++ '.' :: ['0'] := rfl
    rw [text, getlines_of_getline (getline_append (by decide) _),
      getlines_of_getline (getline_last (by decide) (by decide)), getlines_nil]
  have thrown : checkVersion leftToRight (describedAs "1.0") = .escaped .invalidArgument :=
    escaped_of_not_parts present (by rw [fields]; decide)
  have unsupported : ¬ ∃ version,
      (describedAs "1.0").hardwareParameters kVersionName = some version ∧
        Supported version.toList := by
    rintro ⟨version, present', supported⟩
    rw [supported.passed present'] at thrown
    cases thrown
  have error := gate.refuses unsupported workingSurroundings
  rw [onInit_escaped thrown rfl] at error
  cases error

end FrankaRos.Hardware
