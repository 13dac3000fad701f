import IceEnthalpy.Sign

/-!
# Column grids

A column of ice of height `H` is discretised at `n ≥ 2` equally spaced levels, from the base
`z₀ = 0` to the surface `z_{n-1} = H`.  Level `k` lies at `(H·k)/(n-1)`, computed in that order,
and the surface level is `H` itself, whatever the rounding of that quotient.

A grid needs at least two levels and a height greater than zero, checked in that order.  The
same family of errors reports a register of a column whose length differs from the grid's.
-/

namespace IceEnthalpy

/-- The five per-level registers of a column. -/
inductive Register where
  /-- Specific enthalpy, J/kg. -/
  | enthalpy
  /-- First horizontal velocity, m/s. -/
  | u
  /-- Second horizontal velocity, m/s. -/
  | v
  /-- Vertical velocity, m/s. -/
  | w
  /-- Strain heating, W/m³. -/
  | strainHeating
  deriving Repr, DecidableEq

/-- The name of a register as messages write it. -/
def Register.name : Register → String
  | .enthalpy => "enthalpy"
  | .u => "u"
  | .v => "v"
  | .w => "w"
  | .strainHeating => "strain heating"

/-- Why a grid or a column operation is refused. -/
inductive ColumnError (α : Type) where
  /-- Fewer than two levels were asked for. -/
  | tooFewLevels (levels : Nat)
  /-- The height is not greater than zero. -/
  | height (value : α)
  /-- Values for a register do not have one entry per level. -/
  | lengthMismatch (register : Register) (expected actual : Nat)
  deriving Repr

/-- Equally spaced levels from the base to the surface of a column of positive height. -/
structure Grid (α : Type) [Scalar α] where
  /-- Height `H` of the column, m. -/
  height : α
  /-- Heights of the levels above the base, m. -/
  z : Array α
  /-- A grid has at least two levels. -/
  two_le_size : 2 ≤ z.size
  /-- The height is greater than zero. -/
  height_pos : (0.0 : α) < height

namespace Grid

variable {α : Type} [Scalar α]

/-- The heights `(H·k)/(n-1)` of `n` levels, the last being `H` itself. -/
def heights (levels : Nat) (height : α) : Array α :=
  Array.ofFn (n := levels) fun k =>
    if k.val = levels - 1 then height
    else height * Scalar.ofNat k.val / Scalar.ofNat (levels - 1)

theorem size_heights (levels : Nat) (height : α) : (heights levels height).size = levels := by
  simp [heights]

/-- The grid of `levels` levels on a column of `height`, if there are at least two levels and
the height is greater than zero. -/
def build (levels : Nat) (height : α) : Except (ColumnError α) (Grid α) :=
  if hn : levels < 2 then .error (.tooFewLevels levels)
  else if hh : (0.0 : α) < height then
    .ok ⟨height, heights levels height, by rw [size_heights]; omega, hh⟩
  else .error (.height height)

/-- The number of levels. -/
def levels (g : Grid α) : Nat :=
  g.z.size

/-- The distance between the two lowest levels, m. -/
def spacing (g : Grid α) : α :=
  have : 1 < g.z.size := g.two_le_size
  g.z[1] - g.z[0]

theorem build_of_lt (levels : Nat) (height : α) (h : levels < 2) :
    build levels height = .error (.tooFewLevels levels) := by
  simp [build, h]

theorem levels_of_build {levels : Nat} {height : α} {g : Grid α}
    (h : build levels height = .ok g) : g.levels = levels := by
  unfold build at h
  split at h
  · cases h
  · split at h
    · cases h
      exact size_heights levels height
    · cases h

theorem height_of_build {levels : Nat} {height : α} {g : Grid α}
    (h : build levels height = .ok g) : g.height = height := by
  unfold build at h
  split at h
  · cases h
  · split at h
    · cases h
      rfl
    · cases h

end Grid

namespace ColumnError

/-- The constructor name of a column failure. -/
def name {α : Type} : ColumnError α → String
  | .tooFewLevels _ => "TooFewLevels"
  | .height _ => "Height"
  | .lengthMismatch _ _ _ => "LengthMismatch"

/-- What a column failure says. -/
def message : ColumnError Float → String
  | .tooFewLevels n => "a column needs at least 2 levels, got " ++ toString n
  | .height h => "invalid column height: " ++ Message.quantity .length h
  | .lengthMismatch r expected actual =>
    r.name ++ " has " ++ toString actual ++ " values but the column has " ++ toString expected ++
      " levels"

instance : Failure (ColumnError Float) where
  family := "ColumnError"
  path e := [e.name]
  message := message
  causes _ := []

end ColumnError

end IceEnthalpy
