/-
# Theory.Sized -- vectors and matrices that carry their size

Vectors and matrices whose sizes are data, as those of a dynamically sized linear algebra.
A sum, a difference or a product exists only where the sizes fit: anything else is `none`,
the undefined behaviour of a library that checks nothing.

Where the sizes are known, the operations are those of functions and of `Matrix`
(`add_mk`, `sub_mk`, `mulVec_mk`).
-/
import Mathlib.Data.Matrix.Mul
import Mathlib.Algebra.BigOperators.Fin

namespace FrankaRos.Theory

set_option autoImplicit false

universe u

/-- A vector with its size. -/
structure SizedVector (R : Type u) where
  size : Nat
  entries : Fin size → R

/-- A matrix with its numbers of rows and columns. -/
structure SizedMatrix (R : Type u) where
  rows : Nat
  cols : Nat
  entries : Fin rows → Fin cols → R

namespace SizedVector

variable {R : Type u}

theorem eq_mk_of_size {v : SizedVector R} {n : Nat} (size : v.size = n) :
    ∃ entries, v = ⟨n, entries⟩ := by
  subst size
  exact ⟨v.entries, rfl⟩

def map (f : R → R) (v : SizedVector R) : SizedVector R := ⟨v.size, fun i => f (v.entries i)⟩

/-- Entry by entry, if the sizes agree. -/
def zip (f : R → R → R) (v w : SizedVector R) : Option (SizedVector R) :=
  if h : v.size = w.size then some ⟨v.size, fun i => f (v.entries i) (w.entries (i.cast h))⟩
  else none

theorem zip_mk (f : R → R → R) {n : Nat} (a b : Fin n → R) :
    zip f ⟨n, a⟩ ⟨n, b⟩ = some ⟨n, fun i => f (a i) (b i)⟩ := by simp [zip]

variable [Add R] [Sub R]

def add (v w : SizedVector R) : Option (SizedVector R) := zip (· + ·) v w

def sub (v w : SizedVector R) : Option (SizedVector R) := zip (· - ·) v w

end SizedVector

namespace SizedMatrix

variable {R : Type u}

/-- The difference of two matrices, if they have one shape. -/
def sub [Sub R] (a b : SizedMatrix R) : Option (SizedMatrix R) :=
  if h : a.rows = b.rows ∧ a.cols = b.cols then
    some ⟨a.rows, a.cols, fun i j => a.entries i j - b.entries (i.cast h.1) (j.cast h.2)⟩
  else none

/-- The product of a row and a vector, accumulated from the left. -/
def dot [Add R] [Mul R] [Zero R] {n : Nat} (a b : Fin n → R) : R :=
  (List.finRange n).foldl (fun total j => total + a j * b j) 0

/-- The product with a vector, if it has as many entries as the matrix has columns. -/
def mulVec [Add R] [Mul R] [Zero R] (a : SizedMatrix R) (v : SizedVector R) :
    Option (SizedVector R) :=
  if h : a.cols = v.size then
    some ⟨a.rows, fun i => dot (a.entries i) fun j => v.entries (j.cast h)⟩
  else none

theorem sub_mk [Sub R] {m n : Nat} (a b : Fin m → Fin n → R) :
    sub ⟨m, n, a⟩ ⟨m, n, b⟩ = some ⟨m, n, fun i j => a i j - b i j⟩ := by simp [sub]

theorem mulVec_mk [Add R] [Mul R] [Zero R] {m n : Nat} (a : Fin m → Fin n → R) (v : Fin n → R) :
    mulVec ⟨m, n, a⟩ ⟨n, v⟩ = some ⟨m, fun i => dot (a i) v⟩ := by simp [mulVec]

/-- In a semiring the accumulated product is the sum of the products. -/
theorem dot_eq_dotProduct [NonUnitalNonAssocSemiring R] {n : Nat} (a b : Fin n → R) :
    dot a b = dotProduct a b := by
  rw [dot, dotProduct, ← List.sum_ofFn, List.ofFn_eq_map, List.sum_eq_foldl, List.foldl_map]

end SizedMatrix

end FrankaRos.Theory
