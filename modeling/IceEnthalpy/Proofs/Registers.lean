import IceEnthalpy.Proofs.Column

/-!
# The registers of a column under its operations

A column is changed by five operations: three writes (the enthalpy, the velocity, the strain
heating) and two resets (the velocity, the strain heating).  Each is described here by the values
it stores, `Op.stores`: a register it writes receives those values, a reset's being one zero per
level, and every other register keeps its own.  An operation is refused exactly when some values
it would store do not have one entry per level; the refusal, `Op.refusal`, names the first such
register in the order enthalpy, `u`, `v`, `w`, strain heating, which is the order in which the
writes check their arguments.  A refused write stores nothing: the velocity is checked whole
before any component is stored.

A session applies operations in turn, a refused one leaving the column as it was.  Along any
session the grid is the one the column was built with, so each register keeps one entry per level
of that grid.
-/

namespace IceEnthalpy

/-- The registers in the order in which a column checks them. -/
def Register.order : List Register :=
  [.enthalpy, .u, .v, .w, .strainHeating]

namespace Column

/-- An operation on the registers of a column. -/
inductive Op (α : Type) where
  /-- Stores an enthalpy profile. -/
  | setProfile (values : Array α)
  /-- Stores the three velocity components. -/
  | setVelocity (u v w : Array α)
  /-- Stores a strain heating profile. -/
  | setStrainHeating (values : Array α)
  /-- Sets the velocity to zero. -/
  | resetVelocity
  /-- Sets the strain heating to zero. -/
  | resetStrainHeating

namespace Op

variable {α : Type} [Scalar α]

/-- The column after an operation, or why the operation was refused. -/
def apply : Op α → Column α → Except (ColumnError α) (Column α)
  | .setProfile values, c => c.setProfile values
  | .setVelocity u v w, c => c.setVelocity u v w
  | .setStrainHeating values, c => c.setStrainHeating values
  | .resetVelocity, c => .ok c.resetVelocity
  | .resetStrainHeating, c => .ok c.resetStrainHeating

/-- The column after an operation; a refused operation leaves it as it was. -/
def next (op : Op α) (c : Column α) : Column α :=
  match op.apply c with
  | .ok c' => c'
  | .error _ => c

/-- The values an operation stores in a register of a column of `levels` levels, if it writes
that register. -/
def stores (levels : Nat) : Op α → Register → Option (Array α)
  | .setProfile values, .enthalpy => some values
  | .setVelocity u _ _, .u => some u
  | .setVelocity _ v _, .v => some v
  | .setVelocity _ _ w, .w => some w
  | .setStrainHeating values, .strainHeating => some values
  | .resetVelocity, .u => some (Array.replicate levels 0.0)
  | .resetVelocity, .v => some (Array.replicate levels 0.0)
  | .resetVelocity, .w => some (Array.replicate levels 0.0)
  | .resetStrainHeating, .strainHeating => some (Array.replicate levels 0.0)
  | _, _ => none

/-- Why an operation is refused on a column of `levels` levels: the first register, in the
order of `Register.order`, for which it has values without one entry per level. -/
def refusal (levels : Nat) (op : Op α) : Option (ColumnError α) :=
  Register.order.findSome? fun r =>
    match op.stores levels r with
    | some values => if values.size = levels then none else some (.lengthMismatch r levels values.size)
    | none => none

end Op

variable {α : Type} [Scalar α]

/-- The column after operations applied in turn. -/
def session (c : Column α) (ops : List (Op α)) : Column α :=
  ops.foldl (fun c op => op.next c) c

section Operation

variable (c : Column α)

theorem register_resetVelocity (r : Register) :
    c.resetVelocity.register r =
      if r = .u ∨ r = .v ∨ r = .w then Array.replicate c.grid.levels 0.0 else c.register r := by
  cases r <;> rfl

theorem register_resetStrainHeating (r : Register) :
    c.resetStrainHeating.register r =
      if r = .strainHeating then Array.replicate c.grid.levels 0.0 else c.register r := by
  cases r <;> rfl

theorem setVelocity_of_size
    {u v w : Array α}
    (hu : u.size = c.grid.levels)
    (hv : v.size = c.grid.levels)
    (hw : w.size = c.grid.levels) :
    c.setVelocity u v w =
      .ok { c with u := u, v := v, w := w, size_u := hu, size_v := hv, size_w := hw } := by
  simp [setVelocity, fits_of_size c _ hu, fits_of_size c _ hv, fits_of_size c _ hw, bind,
    Except.bind, pure, Except.pure]

theorem setStrainHeating_of_size_ne
    {values : Array α}
    (h : values.size ≠ c.grid.levels) :
    c.setStrainHeating values =
      .error (.lengthMismatch .strainHeating c.grid.levels values.size) := by
  simp [setStrainHeating, fits_of_size_ne c .strainHeating h, bind, Except.bind]

end Operation

namespace Op

/-- An operation is refused exactly with its refusal; otherwise it keeps the grid, stores its
values in the registers it writes and leaves the others. -/
theorem apply_spec (op : Op α) (c : Column α) :
    (∀ e, op.apply c = .error e ↔ op.refusal c.grid.levels = some e) ∧
      ∀ c', op.apply c = .ok c' →
        c'.grid = c.grid ∧ ∀ r, c'.register r = (op.stores c.grid.levels r).getD (c.register r) := by
  cases op with
  | setProfile values =>
      by_cases h : values.size = c.grid.levels
      · simp [apply, refusal, stores, Register.order, h, c.setProfile_of_size h]
        intro r
        cases r <;> rfl
      · simp [apply, refusal, stores, Register.order, h, c.setProfile_of_size_ne h]
  | setVelocity u v w =>
      by_cases hu : u.size = c.grid.levels
      · by_cases hv : v.size = c.grid.levels
        · by_cases hw : w.size = c.grid.levels
          · simp [apply, refusal, stores, Register.order, hu, hv, hw,
              c.setVelocity_of_size hu hv hw]
            intro r
            cases r <;> rfl
          · simp [apply, refusal, stores, Register.order, hu, hv, hw, Column.setVelocity,
              fits_of_size c _ hu, fits_of_size c _ hv, fits_of_size_ne c _ hw, bind, Except.bind]
        · simp [apply, refusal, stores, Register.order, hu, hv, Column.setVelocity,
            fits_of_size c _ hu, fits_of_size_ne c _ hv, bind, Except.bind]
      · simp [apply, refusal, stores, Register.order, hu, Column.setVelocity, fits_of_size_ne c _ hu,
          bind, Except.bind]
  | setStrainHeating values =>
      by_cases h : values.size = c.grid.levels
      · simp [apply, refusal, stores, Register.order, h, c.setStrainHeating_of_size h]
        intro r
        cases r <;> rfl
      · simp [apply, refusal, stores, Register.order, h, c.setStrainHeating_of_size_ne h]
  | resetVelocity =>
      simp [apply, refusal, stores, Register.order, Grid.levels]
      intro r
      cases r <;> rfl
  | resetStrainHeating =>
      simp [apply, refusal, stores, Register.order]
      intro r
      cases r <;> rfl

/-- An operation that is not refused is applied. -/
theorem apply_eq_ok_iff (op : Op α) (c : Column α) :
    (∃ c', op.apply c = .ok c') ↔ op.refusal c.grid.levels = none := by
  cases happly : op.apply c with
  | error e =>
      have hrefusal := ((apply_spec op c).1 e).1 happly
      simp [hrefusal]
  | ok c' =>
      cases hrefusal : op.refusal c.grid.levels with
      | none => simp
      | some e =>
          have := ((apply_spec op c).1 e).2 hrefusal
          rw [happly] at this
          cases this

theorem grid_next (op : Op α) (c : Column α) :
    (op.next c).grid = c.grid := by
  unfold next
  split
  · next c' happly => exact ((apply_spec op c).2 c' happly).1
  · rfl

/-- A refused operation leaves the column as it was. -/
theorem next_of_refusal
    {op : Op α} {c : Column α} {e : ColumnError α}
    (h : op.refusal c.grid.levels = some e) :
    op.next c = c := by
  rw [next, ((apply_spec op c).1 e).2 h]

end Op

/-- What a column of `levels` levels guarantees: one entry per level in every register; every
operation refused exactly with its refusal and then leaving the column as it was, and otherwise
keeping the grid, storing its values in the registers it writes and leaving the others; and a
reset repeated changes nothing. -/
structure Sound (levels : Nat) (c : Column α) : Prop where
  size_register : ∀ r, (c.register r).size = levels
  apply_eq_ok_iff : ∀ op : Op α, (∃ c', op.apply c = .ok c') ↔ op.refusal levels = none
  apply_eq_error_iff : ∀ (op : Op α) e, op.apply c = .error e ↔ op.refusal levels = some e
  next_of_refusal : ∀ (op : Op α) e, op.refusal levels = some e → op.next c = c
  register_of_apply : ∀ (op : Op α) c', op.apply c = .ok c' →
    c'.grid = c.grid ∧ ∀ r, c'.register r = (op.stores levels r).getD (c.register r)
  next_next_of_reset : ∀ op : Op α, op = .resetVelocity ∨ op = .resetStrainHeating →
    op.next (op.next c) = op.next c

/-- Every column is sound for its own number of levels. -/
theorem sound (c : Column α) : Sound c.grid.levels c where
  size_register := c.size_register
  apply_eq_ok_iff op := Op.apply_eq_ok_iff op c
  apply_eq_error_iff op := (Op.apply_spec op c).1
  next_of_refusal _ _ := Op.next_of_refusal
  register_of_apply op := (Op.apply_spec op c).2
  next_next_of_reset := by
    rintro op (rfl | rfl)
    · exact c.resetVelocity_resetVelocity
    · exact c.resetStrainHeating_resetStrainHeating

/-- No operation changes the grid of a column. -/
theorem grid_session (c : Column α) (ops : List (Op α)) :
    (c.session ops).grid = c.grid := by
  induction ops generalizing c with
  | nil => rfl
  | cons op ops ih =>
      rw [session, List.foldl_cons, ← session, ih, Op.grid_next]

/-- A column of `levels ≥ 2` levels on a positive height is built, and along every session of
operations on it the grid stays the built one and the column stays sound for `levels` levels. -/
theorem build_session_sound
    {levels : Nat} {height : α}
    (hlevels : 2 ≤ levels)
    (hheight : (0.0 : α) < height) :
    ∃ c₀, build levels height = .ok c₀ ∧
      ∀ ops : List (Op α), (c₀.session ops).grid = c₀.grid ∧ Sound levels (c₀.session ops) := by
  obtain ⟨g, hg⟩ : ∃ g, Grid.build levels height = .ok g :=
    ⟨_, by rw [Grid.build, dif_neg (by omega), dif_pos hheight]⟩
  refine ⟨zeroed g, by rw [build, hg]; rfl, fun ops => ⟨grid_session _ ops, ?_⟩⟩
  have hlevels' : ((zeroed g).session ops).grid.levels = levels := by
    rw [grid_session]
    exact Grid.levels_of_build hg
  exact hlevels' ▸ sound _

/-- A velocity with two components of the wrong length is refused at the first of them. -/
example : (Op.setVelocity #[0.0, 0.0] #[0.0] #[] : Op Float).refusal 2 =
    some (.lengthMismatch .v 2 1) := by
  rfl

/-- The laws on a column of three levels spanning 1000 m. -/
theorem build_session_sound_three :
    2 ≤ 3 ∧ (0.0 : ℝ) < 1000.0 ∧
      ∃ c₀, build 3 (1000.0 : ℝ) = .ok c₀ ∧
        ∀ ops : List (Op ℝ), (c₀.session ops).grid = c₀.grid ∧ Sound 3 (c₀.session ops) :=
  ⟨by decide, by norm_num, build_session_sound (by decide) (by norm_num)⟩

end Column

end IceEnthalpy
