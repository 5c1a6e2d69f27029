/-
# Theory.Fields -- delimited fields, read one by one

`getline` extracts the symbols up to a delimiter, which it consumes, or up to the end; at
the end it fails.  `getlines` calls it until it fails.  The last field is therefore read
whether a delimiter follows it or not, but only if it is there: a text that ends in a
delimiter has no empty field behind it, and the empty text has no field at all.
`getlines_eq_iff` says which texts have given fields.
-/
import Mathlib.Data.List.TakeWhile

namespace FrankaRos.Theory

set_option autoImplicit false

universe u

variable {α : Type u} [DecidableEq α] {delim : α}

/-- The next field and what is left behind its delimiter. -/
def getline (delim : α) : List α → Option (List α × List α)
  | [] => none
  | c :: text =>
      some ((c :: text).takeWhile (· ≠ delim), ((c :: text).dropWhile (· ≠ delim)).tail)

theorem other_of_free {field : List α} (free : delim ∉ field) :
    ∀ c ∈ field, decide (c ≠ delim) = true :=
  fun _ member => decide_eq_true fun same => free (same ▸ member)

/-- A field with its delimiter. -/
theorem getline_append {field : List α} (free : delim ∉ field) (rest : List α) :
    getline delim (field ++ delim :: rest) = some (field, rest) := by
  have taken : (field ++ delim :: rest).takeWhile (· ≠ delim) = field := by
    rw [List.takeWhile_append_of_pos (other_of_free free), List.takeWhile_cons_of_neg (by simp),
      List.append_nil]
  have dropped : (field ++ delim :: rest).dropWhile (· ≠ delim) = delim :: rest := by
    rw [List.dropWhile_append_of_pos (other_of_free free), List.dropWhile_cons_of_neg (by simp)]
  cases field with
  | nil => simp [getline]
  | cons c field =>
      rw [List.cons_append] at taken dropped ⊢
      rw [getline, taken, dropped, List.tail_cons]

/-- A field that the text ends with. -/
theorem getline_last {field : List α} (free : delim ∉ field) (more : field ≠ []) :
    getline delim field = some (field, []) := by
  cases field with
  | nil => exact absurd rfl more
  | cons c field =>
      rw [getline, List.takeWhile_eq_self_iff.2 (other_of_free free),
        List.dropWhile_eq_nil_iff.2 (other_of_free free), List.tail_nil]

/-- The next field of a text, delimited or at its end. -/
theorem getline_eq_some {text field rest : List α}
    (next : getline delim text = some (field, rest)) :
    delim ∉ field ∧ (text = field ++ delim :: rest ∨ text = field ∧ field ≠ [] ∧ rest = []) := by
  cases text with
  | nil => cases next
  | cons c text =>
      simp only [getline, Option.some.injEq, Prod.mk.injEq] at next
      obtain ⟨rfl, rfl⟩ := next
      have whole := List.takeWhile_append_dropWhile (p := (· ≠ delim)) (l := c :: text)
      refine ⟨fun member => by simpa using List.mem_takeWhile_imp member, ?_⟩
      cases behind : (c :: text).dropWhile (· ≠ delim) with
      | nil =>
          rw [behind, List.append_nil] at whole
          rw [whole]
          exact .inr ⟨rfl, List.cons_ne_nil c text, rfl⟩
      | cons d rest =>
          have stopped := List.head_dropWhile_not (· ≠ delim) (l := c :: text)
            (by rw [behind]; exact List.cons_ne_nil d rest)
          simp only [behind, List.head_cons, decide_eq_false_iff_not, not_not] at stopped
          rw [behind, stopped] at whole
          exact .inl whole.symm

theorem length_of_getline {text field rest : List α}
    (next : getline delim text = some (field, rest)) : rest.length < text.length := by
  obtain ⟨_, rfl | ⟨rfl, more, rfl⟩⟩ := getline_eq_some next
  · simp only [List.length_append, List.length_cons]
    omega
  · exact List.length_pos_iff.2 more

/-- All fields: `getline` until it fails. -/
def getlines (delim : α) (text : List α) : List (List α) :=
  match _next : getline delim text with
  | none => []
  | some (field, rest) => field :: getlines delim rest
termination_by text.length
decreasing_by exact length_of_getline _next

@[simp] theorem getlines_nil : getlines delim ([] : List α) = [] := by
  rw [getlines]
  rfl

theorem getlines_of_getline {text field rest : List α}
    (next : getline delim text = some (field, rest)) :
    getlines delim text = field :: getlines delim rest := by
  rw [getlines]
  split
  · rename_i none
    rw [next] at none
    cases none
  · rename_i field' rest' next'
    obtain ⟨rfl, rfl⟩ := Prod.mk.inj (Option.some.inj (next.symm.trans next'))
    rfl

@[simp] theorem getlines_eq_nil_iff {text : List α} : getlines delim text = [] ↔ text = [] := by
  cases text with
  | nil => simp
  | cons c text =>
      have next : getline delim (c :: text) = some _ := rfl
      simp [getlines_of_getline next]

theorem getlines_eq_cons_iff {text field : List α} {fields : List (List α)} :
    getlines delim text = field :: fields ↔
      delim ∉ field ∧ ∃ rest, getlines delim rest = fields ∧
        (text = field ++ delim :: rest ∨ text = field ∧ field ≠ [] ∧ rest = []) := by
  constructor
  · intro read
    cases next : getline delim text with
    | none => cases text with
      | nil => simp at read
      | cons c text => cases next
    | some found =>
        obtain ⟨field', rest⟩ := found
        rw [getlines_of_getline next] at read
        obtain ⟨rfl, rfl⟩ := List.cons.inj read
        obtain ⟨free, shape⟩ := getline_eq_some next
        exact ⟨free, rest, rfl, shape⟩
  · rintro ⟨free, rest, rfl, rfl | ⟨rfl, more, rfl⟩⟩
    · exact getlines_of_getline (getline_append free rest)
    · exact getlines_of_getline (getline_last free more)

/-- The fields, each with its delimiter. -/
def terminated (delim : α) (fields : List (List α)) : List α := fields.flatMap (· ++ [delim])

/-- A text has given fields exactly when they are free of the delimiter and it is the fields,
each with its delimiter, or the same without the last delimiter if the last field is not
empty. -/
theorem getlines_eq_iff {text : List α} {fields : List (List α)} :
    getlines delim text = fields ↔
      (∀ field ∈ fields, delim ∉ field) ∧
        (text = terminated delim fields ∨
          ∃ before last, fields = before ++ [last] ∧ last ≠ [] ∧
            text = terminated delim before ++ last) := by
  induction fields generalizing text with
  | nil => simp [terminated]
  | cons field fields ih =>
      rw [getlines_eq_cons_iff, List.forall_mem_cons, and_assoc]
      refine and_congr_right fun free => ?_
      constructor
      · rintro ⟨rest, read, shape⟩
        obtain ⟨frees, ends⟩ := ih.1 read
        refine ⟨frees, ?_⟩
        rcases shape with rfl | ⟨rfl, more, rfl⟩
        · rcases ends with rfl | ⟨before, last, rfl, more, rfl⟩
          · exact .inl (by simp [terminated])
          · exact .inr ⟨field :: before, last, rfl, more, by simp [terminated]⟩
        · obtain rfl : fields = [] := by simpa using read.symm
          exact .inr ⟨[], text, rfl, more, by simp [terminated]⟩
      · rintro ⟨frees, rfl | ⟨before, last, split, more, rfl⟩⟩
        · exact ⟨terminated delim fields, ih.2 ⟨frees, .inl rfl⟩, .inl (by simp [terminated])⟩
        · cases before with
          | nil =>
              obtain ⟨rfl, rfl⟩ := List.cons.inj split
              exact ⟨[], by simp, .inr ⟨by simp [terminated], more, rfl⟩⟩
          | cons _ before =>
              obtain ⟨rfl, rfl⟩ := List.cons.inj split
              exact ⟨terminated delim before ++ last,
                ih.2 ⟨frees, .inr ⟨before, last, rfl, more, rfl⟩⟩, .inl (by simp [terminated])⟩

end FrankaRos.Theory
