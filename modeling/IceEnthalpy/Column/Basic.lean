import IceEnthalpy.Column.Grid

/-!
# Columns

A column is a grid together with five registers holding one value per level: the enthalpy,
the three components `u`, `v`, `w` of the ice velocity, and the strain heating.  A new column is
zero everywhere.

Writing a register needs exactly one value per level; otherwise the write is refused with the
register's name and nothing changes.  Writing the velocity checks `u`, `v` and `w` in that order
before any of them is stored, so a refused write never stores part of a velocity.  The grid of a
column never changes.
-/

namespace IceEnthalpy

/-- A grid and its five registers, each with one value per level. -/
structure Column (α : Type) [Scalar α] where
  /-- The levels of the column. -/
  grid : Grid α
  /-- Specific enthalpy, J/kg. -/
  enthalpy : Array α
  /-- First horizontal velocity, m/s. -/
  u : Array α
  /-- Second horizontal velocity, m/s. -/
  v : Array α
  /-- Vertical velocity, m/s. -/
  w : Array α
  /-- Strain heating, W/m³. -/
  strainHeating : Array α
  size_enthalpy : enthalpy.size = grid.levels
  size_u : u.size = grid.levels
  size_v : v.size = grid.levels
  size_w : w.size = grid.levels
  size_strainHeating : strainHeating.size = grid.levels

namespace Column

variable {α : Type} [Scalar α]

/-- One zero per level. -/
def zerosOn (g : Grid α) : Array α :=
  Array.replicate g.levels 0.0

theorem size_zerosOn (g : Grid α) : (zerosOn g).size = g.levels := by
  simp [zerosOn]

/-- The column on a grid with every register zero. -/
def zeroed (g : Grid α) : Column α where
  grid := g
  enthalpy := zerosOn g
  u := zerosOn g
  v := zerosOn g
  w := zerosOn g
  strainHeating := zerosOn g
  size_enthalpy := size_zerosOn g
  size_u := size_zerosOn g
  size_v := size_zerosOn g
  size_w := size_zerosOn g
  size_strainHeating := size_zerosOn g

/-- The zeroed column of `levels` levels on a column of `height`. -/
def build (levels : Nat) (height : α) : Except (ColumnError α) (Column α) :=
  (Grid.build levels height).map zeroed

/-- Heights of the levels, m. -/
def z (c : Column α) : Array α :=
  c.grid.z

/-- The contents of a register. -/
def register (c : Column α) : Register → Array α
  | .enthalpy => c.enthalpy
  | .u => c.u
  | .v => c.v
  | .w => c.w
  | .strainHeating => c.strainHeating

/-- Refuses values for a register that do not have one entry per level. -/
def fits (c : Column α) (r : Register) (values : Array α) :
    Except (ColumnError α) (PLift (values.size = c.grid.levels)) :=
  if h : values.size = c.grid.levels then .ok ⟨h⟩
  else .error (.lengthMismatch r c.grid.levels values.size)

/-- Stores an enthalpy profile. -/
def setProfile (c : Column α) (values : Array α) : Except (ColumnError α) (Column α) := do
  let ⟨h⟩ ← c.fits .enthalpy values
  return { c with enthalpy := values, size_enthalpy := h }

/-- Stores the three velocity components, after checking all three. -/
def setVelocity (c : Column α) (u v w : Array α) : Except (ColumnError α) (Column α) := do
  let ⟨hu⟩ ← c.fits .u u
  let ⟨hv⟩ ← c.fits .v v
  let ⟨hw⟩ ← c.fits .w w
  return { c with u := u, v := v, w := w, size_u := hu, size_v := hv, size_w := hw }

/-- Stores a strain heating profile. -/
def setStrainHeating (c : Column α) (values : Array α) : Except (ColumnError α) (Column α) := do
  let ⟨h⟩ ← c.fits .strainHeating values
  return { c with strainHeating := values, size_strainHeating := h }

/-- Sets the velocity to zero. -/
def resetVelocity (c : Column α) : Column α :=
  { c with u := zerosOn c.grid, v := zerosOn c.grid, w := zerosOn c.grid,
           size_u := size_zerosOn c.grid, size_v := size_zerosOn c.grid,
           size_w := size_zerosOn c.grid }

/-- Sets the strain heating to zero. -/
def resetStrainHeating (c : Column α) : Column α :=
  { c with strainHeating := zerosOn c.grid, size_strainHeating := size_zerosOn c.grid }

theorem register_enthalpy (c : Column α) : c.register .enthalpy = c.enthalpy := rfl

theorem size_register (c : Column α) (r : Register) : (c.register r).size = c.grid.levels := by
  cases r
  · exact c.size_enthalpy
  · exact c.size_u
  · exact c.size_v
  · exact c.size_w
  · exact c.size_strainHeating

theorem fits_of_size (c : Column α) (r : Register) {values : Array α}
    (h : values.size = c.grid.levels) : c.fits r values = .ok ⟨h⟩ := by
  rw [fits, dif_pos h]

theorem fits_of_size_ne (c : Column α) (r : Register) {values : Array α}
    (h : values.size ≠ c.grid.levels) :
    c.fits r values = .error (.lengthMismatch r c.grid.levels values.size) := by
  rw [fits, dif_neg h]

theorem setProfile_of_size (c : Column α) {values : Array α} (h : values.size = c.grid.levels) :
    c.setProfile values = .ok { c with enthalpy := values, size_enthalpy := h } := by
  rw [setProfile, fits_of_size c .enthalpy h]
  rfl

theorem setProfile_of_size_ne (c : Column α) {values : Array α}
    (h : values.size ≠ c.grid.levels) :
    c.setProfile values = .error (.lengthMismatch .enthalpy c.grid.levels values.size) := by
  rw [setProfile, fits_of_size_ne c .enthalpy h]
  rfl

theorem setStrainHeating_of_size (c : Column α) {values : Array α}
    (h : values.size = c.grid.levels) :
    c.setStrainHeating values =
      .ok { c with strainHeating := values, size_strainHeating := h } := by
  rw [setStrainHeating, fits_of_size c .strainHeating h]
  rfl

@[simp] theorem grid_resetVelocity (c : Column α) : c.resetVelocity.grid = c.grid := rfl

@[simp] theorem grid_resetStrainHeating (c : Column α) : c.resetStrainHeating.grid = c.grid := rfl

@[simp] theorem enthalpy_resetVelocity (c : Column α) :
    c.resetVelocity.enthalpy = c.enthalpy := rfl

@[simp] theorem enthalpy_resetStrainHeating (c : Column α) :
    c.resetStrainHeating.enthalpy = c.enthalpy := rfl

theorem resetVelocity_resetVelocity (c : Column α) :
    c.resetVelocity.resetVelocity = c.resetVelocity := rfl

theorem resetStrainHeating_resetStrainHeating (c : Column α) :
    c.resetStrainHeating.resetStrainHeating = c.resetStrainHeating := rfl

end Column

end IceEnthalpy
