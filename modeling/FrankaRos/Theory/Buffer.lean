/-
# Theory.Buffer -- vectors with a size and a capacity

A buffer has as many cells as its capacity, and the first `size` of them are its elements.
Cells that are only reserved hold nothing, but they can be reached: nobody checks an index.
So a computation notes every element it touches, with the size of its vector (`Accessing`),
and only an access that has no cell, or finds nothing in it, is `none`.

How much is allocated for how many elements is up to the implementation (`Growth`).
-/
import Mathlib.Data.Vector.Basic

namespace FrankaRos.Theory

set_option autoImplicit false

/-! ## Accesses -/

/-- An element that is read or written, and the size of its vector. -/
structure Access where
  index : Nat
  size : Nat
  deriving DecidableEq, Repr

def Access.Within (access : Access) : Prop := access.index < access.size

abbrev Accessing (α : Type) := StateT (List Access) Option α

namespace Accessing

variable {α β : Type}

def note (access : Access) : Accessing Unit := modify (· ++ [access])

/-- The computation ends with `a`, and these are its accesses. -/
def Gives (c : Accessing α) (a : α) (accesses : List Access) : Prop :=
  ∀ noted, c.run noted = some (a, noted ++ accesses)

theorem gives_pure (a : α) : Gives (pure a) a [] := by
  intro noted
  rw [StateT.run_pure, List.append_nil]
  rfl

theorem gives_note (access : Access) : Gives (note access) () [access] := fun _ => rfl

theorem gives_lift {found : Option α} {a : α} (holds : found = some a) :
    Gives (liftM found) a [] := by
  intro noted
  rw [holds, List.append_nil]
  rfl

/-- The accesses of a sequence are those of its parts, one after the other. -/
theorem Gives.bind {c : Accessing α} {f : α → Accessing β} {a : α} {b : β}
    {before after : List Access} (first : Gives c a before) (rest : Gives (f a) b after) :
    Gives (c >>= f) b (before ++ after) := by
  intro noted
  rw [StateT.run_bind, first noted]
  show (f a).run (noted ++ before) = _
  rw [rest, List.append_assoc]

theorem Gives.map {c : Accessing α} {a : α} {accesses : List Access} (f : α → β)
    (first : Gives c a accesses) : Gives (c >>= fun a => pure (f a)) (f a) accesses := by
  have both : Gives (c >>= fun a => pure (f a)) (f a) (accesses ++ []) :=
    first.bind (gives_pure (f a))
  rwa [List.append_nil] at both

theorem Gives.unique {c : Accessing α} {a b : α} {before after : List Access}
    (left : Gives c a before) (right : Gives c b after) : a = b ∧ before = after := by
  have same := (left []).symm.trans (right [])
  simpa using same

/-- The computation ends with `a`, and every element on the way is one of its vector. -/
def Clean (c : Accessing α) (a : α) : Prop :=
  ∃ accesses, Gives c a accesses ∧ ∀ access ∈ accesses, access.Within

end Accessing

/-! ## Buffers -/

/-- What an implementation allocates: for `reserve(n)`, and for `extra` elements behind `size`
others that have no room. -/
structure Growth where
  reserved : Nat → Nat
  grown : Nat → Nat → Nat
  le_reserved : ∀ n, n ≤ reserved n
  le_grown : ∀ size extra, size + extra ≤ grown size extra

/-- The usual one: what is reserved, and at least twice the size. -/
def Growth.doubling : Growth where
  reserved := id
  grown := fun size extra => size + max size extra
  le_reserved := fun _ => le_rfl
  le_grown := fun _ _ => Nat.add_le_add_left (le_max_right _ _) _

@[ext]
structure Buffer (V : Type) where
  cells : List (Option V)
  size : Nat
  size_le : size ≤ cells.length

namespace Buffer

open Accessing

variable {V : Type}

def capacity (b : Buffer V) : Nat := b.cells.length

/-- The elements. -/
def contents (b : Buffer V) : List (Option V) := b.cells.take b.size

def empty : Buffer V := ⟨[], 0, le_rfl⟩

theorem length_contents (b : Buffer V) : b.contents.length = b.size :=
  List.length_take_of_le b.size_le

/-- A buffer with these elements, and empty cells up to a capacity. -/
def allocate (elements : List (Option V)) (capacity : Nat) : Buffer V :=
  ⟨elements ++ List.replicate (capacity - elements.length) none, elements.length, by simp⟩

theorem contents_allocate (elements : List (Option V)) (capacity : Nat) :
    (allocate elements capacity).contents = elements := by simp [allocate, contents]

theorem capacity_allocate {elements : List (Option V)} {capacity : Nat}
    (room : elements.length ≤ capacity) : (allocate elements capacity).capacity = capacity := by
  simp only [allocate, Buffer.capacity, List.length_append, List.length_replicate]
  omega

/-- `reserve`. -/
def reserve (growth : Growth) (n : Nat) (b : Buffer V) : Buffer V :=
  if n ≤ b.capacity then b else allocate b.contents (growth.reserved n)

/-- `insert` at the end. -/
def insertEnd (growth : Growth) (values : List V) (b : Buffer V) : Buffer V :=
  let elements := b.contents ++ values.map some
  if elements.length ≤ b.capacity then
    ⟨elements ++ b.cells.drop elements.length, elements.length, by simp⟩
  else allocate elements (growth.grown b.size values.length)

theorem contents_reserve (growth : Growth) (n : Nat) (b : Buffer V) :
    (b.reserve growth n).contents = b.contents := by
  unfold reserve
  split
  · rfl
  · exact contents_allocate _ _

theorem contents_insertEnd (growth : Growth) (values : List V) (b : Buffer V) :
    (b.insertEnd growth values).contents = b.contents ++ values.map some := by
  unfold insertEnd
  dsimp only
  split
  · exact List.take_left
  · exact contents_allocate _ _

theorem size_reserve (growth : Growth) (n : Nat) (b : Buffer V) :
    (b.reserve growth n).size = b.size := by
  rw [← length_contents, contents_reserve, length_contents]

theorem isPrefix_of_contents {values : Buffer V} {held : List V}
    (contents : values.contents = held.map some) : held.map some <+: values.cells :=
  contents ▸ List.take_prefix _ _

theorem size_of_contents {values : Buffer V} {held : List V}
    (contents : values.contents = held.map some) : values.size = held.length := by
  rw [← length_contents, contents, List.length_map]

/-- Inserting values one after the other. -/
theorem contents_foldl (growth : Growth) (values : List V) (b : Buffer V) :
    (values.foldl (fun b v => b.insertEnd growth [v]) b).contents =
      b.contents ++ values.map some := by
  induction values generalizing b with
  | nil => exact (List.append_nil _).symm
  | cons v values ih =>
      rw [List.foldl_cons, ih, contents_insertEnd, List.append_assoc]
      rfl

theorem size_insertEnd (growth : Growth) (values : List V) (b : Buffer V) :
    (b.insertEnd growth values).size = b.size + values.length := by
  rw [← length_contents, contents_insertEnd, List.length_append, length_contents, List.length_map]

theorem capacity_insertEnd_of_le {growth : Growth} {values : List V} {b : Buffer V}
    (room : b.size + values.length ≤ b.capacity) :
    (b.insertEnd growth values).capacity = b.capacity := by
  have counted : (b.contents ++ values.map some).length = b.size + values.length := by
    rw [List.length_append, length_contents, List.length_map]
  unfold insertEnd
  dsimp only
  rw [if_pos (counted ▸ room)]
  simp only [capacity] at room ⊢
  rw [List.length_append, List.length_drop]
  omega

theorem capacity_insertEnd_of_lt {growth : Growth} {values : List V} {b : Buffer V}
    (full : b.capacity < b.size + values.length) :
    (b.insertEnd growth values).capacity = growth.grown b.size values.length := by
  have counted : (b.contents ++ values.map some).length = b.size + values.length := by
    rw [List.length_append, length_contents, List.length_map]
  unfold insertEnd
  dsimp only
  rw [if_neg (by omega)]
  exact capacity_allocate (counted ▸ growth.le_grown _ _)

theorem capacity_reserve_empty (growth : Growth) {n : Nat} (positive : 0 < n) :
    ((empty : Buffer V).reserve growth n).capacity = growth.reserved n := by
  unfold reserve
  rw [if_neg]
  · exact capacity_allocate (Nat.zero_le _)
  · exact Nat.not_le.2 positive

/-! ## Elements -/

/-- `b[i]`, read. -/
def read (b : Buffer V) (i : Nat) : Accessing V := do
  note ⟨i, b.size⟩
  liftM b.cells[i]?.join

/-- `b[i]`, written. -/
def write (b : Buffer V) (i : Nat) (v : V) : Accessing (Buffer V) := do
  note ⟨i, b.size⟩
  if i < b.capacity then
    return ⟨b.cells.set i (some v), b.size, by simpa using b.size_le⟩
  else liftM (none : Option (Buffer V))

/-- Reading `n` elements from the one with index `i` on, as `std::copy_n` does. -/
def readFrom (b : Buffer V) (i : Nat) : (n : Nat) → Accessing (List.Vector V n)
  | 0 => pure .nil
  | n + 1 => do
      let v ← b.read i
      let rest ← b.readFrom (i + 1) n
      return v ::ᵥ rest

/-- Writing values one after the other, from the index `i` on. -/
def writeFrom (b : Buffer V) (i : Nat) : List V → Accessing (Buffer V)
  | [] => pure b
  | v :: values => do
      let b ← b.write i v
      b.writeFrom (i + 1) values

/-- The accesses to `n` elements, one after the other. -/
def accesses (size i n : Nat) : List Access := (List.range' i n).map fun index => ⟨index, size⟩

theorem accesses_within_iff {size i n : Nat} (positive : 0 < n) :
    (∀ access ∈ accesses size i n, access.Within) ↔ i + n ≤ size := by
  constructor
  · intro within
    have member : i + n - 1 ∈ List.range' i n := List.mem_range'_1.2 (by omega)
    have last : i + n - 1 < size := within _ (List.mem_map_of_mem member)
    omega
  · intro fits access member
    obtain ⟨index, listed, rfl⟩ := List.mem_map.1 member
    have bound := (List.mem_range'_1.1 listed).2
    show index < size
    omega

theorem not_within_of_unsized {n : Nat} (positive : 0 < n) {rest : List Access} :
    ¬ ∀ access ∈ accesses 0 0 n ++ rest, access.Within := by
  intro within
  have first := (List.forall_mem_append.1 within).1
  have fits := (accesses_within_iff positive).1 first
  omega

theorem of_cons_prefix_drop {α : Type} {cells rest : List α} {x : α} {i : Nat}
    (stored : x :: rest <+: cells.drop i) :
    cells[i]? = some x ∧ rest <+: cells.drop (i + 1) := by
  obtain ⟨behind, held⟩ := stored
  constructor
  · rw [← List.head?_drop, ← held]
    rfl
  · rw [← List.tail_drop, ← held]
    exact ⟨behind, rfl⟩

theorem gives_read {b : Buffer V} {i : Nat} {v : V} (stored : b.cells[i]? = some (some v)) :
    Gives (b.read i) v [⟨i, b.size⟩] := by
  refine (gives_note _).bind (gives_lift ?_)
  rw [stored]
  rfl

theorem gives_write {b : Buffer V} {i : Nat} (cell : i < b.capacity) (v : V) :
    ∃ after : Buffer V, Gives (b.write i v) after [⟨i, b.size⟩] ∧ after.size = b.size ∧
      after.cells = b.cells.set i (some v) := by
  refine ⟨⟨b.cells.set i (some v), b.size, by simpa using b.size_le⟩, ?_, rfl, rfl⟩
  refine (gives_note _).bind ?_
  rw [if_pos cell]
  exact gives_pure _

/-- What the cells hold from an index on can be read. -/
theorem gives_readFrom {b : Buffer V} {i n : Nat} {values : List.Vector V n}
    (stored : values.toList.map some <+: b.cells.drop i) :
    Gives (b.readFrom i n) values (accesses b.size i n) := by
  induction n generalizing i with
  | zero =>
      rw [List.Vector.eq_nil values]
      exact gives_pure _
  | succ n ih =>
      obtain ⟨v, rest, rfl⟩ := values.exists_eq_cons
      rw [List.Vector.toList_cons, List.map_cons] at stored
      obtain ⟨first, later⟩ := of_cons_prefix_drop stored
      exact (gives_read first).bind ((ih later).map _)

/-- Elements that stand behind others in a vector are read cleanly. -/
theorem clean_readFrom {values : Buffer V} {before after : List V} {n : Nat}
    {wanted : List.Vector V n} (positive : 0 < n)
    (contents : values.contents = (before ++ wanted.toList ++ after).map some) :
    Clean (values.readFrom before.length n) wanted := by
  have stored : wanted.toList.map some <+: values.cells.drop before.length := by
    obtain ⟨behind, cells⟩ := isPrefix_of_contents contents
    rw [← cells, List.map_append, List.map_append, List.append_assoc, List.append_assoc,
      List.drop_append_of_le_length (by rw [List.length_map]),
      List.drop_eq_nil_of_le (by rw [List.length_map]), List.nil_append]
    exact List.prefix_append _ _
  refine ⟨_, gives_readFrom stored, (accesses_within_iff positive).2 ?_⟩
  rw [size_of_contents contents, List.length_append, List.length_append, wanted.toList_length]
  omega

/-- Values that have cells from an index on are written there. -/
theorem gives_writeFrom {b : Buffer V} {i : Nat} {values : List V}
    (room : i + values.length ≤ b.capacity) :
    ∃ after, Gives (b.writeFrom i values) after (accesses b.size i values.length) ∧
      after.size = b.size ∧
      after.cells = b.cells.take i ++ values.map some ++ b.cells.drop (i + values.length) := by
  induction values generalizing b i with
  | nil => exact ⟨b, gives_pure b, rfl, by simp⟩
  | cons v values ih =>
      rw [List.length_cons] at room
      have cell : i < b.capacity := by omega
      obtain ⟨next, wrote, size, cells⟩ := gives_write cell v
      have enough : i + 1 + values.length ≤ next.capacity := by
        rw [capacity, cells, List.length_set]
        exact (by omega : i + 1 + values.length ≤ b.capacity)
      obtain ⟨after, run, kept, stored⟩ := ih enough
      refine ⟨after, ?_, kept.trans size, ?_⟩
      · rw [size] at run
        exact wrote.bind run
      · have taken : (b.cells.set i (some v)).take (i + 1) = b.cells.take i ++ [some v] := by
          rw [List.take_add_one, List.take_set_of_le le_rfl, List.getElem?_set_self cell]
          rfl
        rw [stored, cells, taken, List.drop_set_of_lt (by omega)]
        simp [Nat.add_assoc, Nat.add_comm 1]

end Buffer

end FrankaRos.Theory
