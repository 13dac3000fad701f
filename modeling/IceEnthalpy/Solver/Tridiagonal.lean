import IceEnthalpy.Solver.Error

/-!
# Tridiagonal systems

A tridiagonal system is a list of rows; row `i` stands for the equation
`lower·x[i-1] + diag·x[i] + upper·x[i+1] = rhs`, where the first row's `lower` and the last row's
`upper` are ignored.

Gaussian elimination without pivoting (the Thomas algorithm) runs down the rows and then back
up.  Going down, row `i` has the pivot `p₀ = diag` for the first row and
`pᵢ = diag - lower·c_{i-1}` after it, and is reduced to `x[i] + cᵢ·x[i+1] = dᵢ` with
`cᵢ = upper/pᵢ` (zero for the last row), `d₀ = rhs/p₀` and `dᵢ = (rhs - lower·d_{i-1})/pᵢ`.
Going up, the last unknown is its `d` and each other is `dᵢ - cᵢ·x[i+1]`.

The solve refuses a pivot whose magnitude is below the smallest normal number or that is not
finite, at the first such row, and then a solution that is not finite, at the first such level.
-/

namespace IceEnthalpy

/-- One equation `lower·x[i-1] + diag·x[i] + upper·x[i+1] = rhs` of a tridiagonal system. -/
structure Row (α : Type) where
  /-- Coefficient of the unknown below. -/
  lower : α
  /-- Coefficient of the row's own unknown. -/
  diag : α
  /-- Coefficient of the unknown above. -/
  upper : α
  /-- Right-hand side. -/
  rhs : α
  deriving Repr

namespace Tridiagonal

variable {α : Type} [Scalar α]

/-- A pivot that elimination cannot divide by. -/
def singular (pivot : α) : Bool :=
  decide (Scalar.abs pivot < Scalar.minNormal) || !Scalar.isFinite pivot

/-- The pivot of a row, given the reduced row above it. -/
def pivot (above : Option (α × α)) (r : Row α) : α :=
  match above with
  | none => r.diag
  | some (c, _) => r.diag - r.lower * c

/-- The reduced right-hand side `d` of a row with its pivot, given the reduced row above. -/
def reducedRhs (above : Option (α × α)) (r : Row α) (p : α) : α :=
  match above with
  | none => r.rhs / p
  | some (_, d) => (r.rhs - r.lower * d) / p

/-- Downward elimination from row `index` on: the pairs `(cᵢ, dᵢ)` of the reduced rows. -/
def eliminate (above : Option (α × α)) (index : Nat) :
    List (Row α) → Except (Breakdown α) (List (α × α))
  | [] => .ok []
  | r :: rest =>
    let p := pivot above r
    if singular p then .error (.singularPivot p index)
    else
      let c : α := if rest.isEmpty then 0.0 else r.upper / p
      let d := reducedRhs above r p
      (eliminate (some (c, d)) (index + 1) rest).map ((c, d) :: ·)

/-- Upward substitution through reduced rows `x[i] + cᵢ·x[i+1] = dᵢ`. -/
def substitute : List (α × α) → List α
  | [] => []
  | (c, d) :: rest =>
    match substitute rest with
    | [] => [d]
    | x :: xs => (d - c * x) :: x :: xs

/-- The solution of a tridiagonal system, or the breakdown that stopped it. -/
def solve (rows : List (Row α)) : Except (Breakdown α) (List α) := do
  let reduced ← eliminate none 0 rows
  let x := substitute reduced
  match x.findIdx? (fun v => !Scalar.isFinite v) with
  | some level => .error (.nonFinite level)
  | none => .ok x

@[simp] theorem length_substitute (reduced : List (α × α)) :
    (substitute reduced).length = reduced.length := by
  induction reduced with
  | nil => rfl
  | cons cd rest ih =>
    obtain ⟨c, d⟩ := cd
    simp only [substitute]
    split
    · next h => simp_all
    · next x xs h => simp_all

theorem length_eliminate {above : Option (α × α)} {index : Nat} {rows : List (Row α)}
    {reduced : List (α × α)} (h : eliminate above index rows = .ok reduced) :
    reduced.length = rows.length := by
  induction rows generalizing above index reduced with
  | nil => simp [eliminate] at h; simp [← h]
  | cons r rest ih =>
    simp only [eliminate] at h
    split at h
    · cases h
    · revert h
      generalize hrec : eliminate _ (index + 1) rest = tail
      intro h
      cases tail with
      | error e => cases h
      | ok tail =>
        cases h
        simp [ih hrec]

theorem length_solve {rows : List (Row α)} {x : List α} (h : solve rows = .ok x) :
    x.length = rows.length := by
  unfold solve at h
  cases he : eliminate none 0 rows with
  | error e => simp [he, bind, Except.bind] at h
  | ok reduced =>
    simp only [he, bind, Except.bind] at h
    split at h
    · cases h
    · cases h
      simp [length_eliminate he]

end Tridiagonal

end IceEnthalpy
