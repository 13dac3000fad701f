import IceEnthalpy.Proofs.Reflection

/-!
# Lines are steady states

A profile on a line `a + b·z` has no second difference, so the conduction equation leaves it
where it is when the ends hold it there: the value `a` at the base or `a + b·H` at the surface,
or the heat flux `K·b` through either end.  Read exactly, every stage of a step keeps such a line.
Interpolation onto the solver's grid, however refined, reads the line at the finer levels.  The
θ-step returns the line, since the line satisfies every equation of the step, the ghost levels of
a flux end included.  The remap reads the line back at the column's levels.

Main statements: one step of the cycle on a column that holds a line, with conditions that hold
it, returns the line on the solver's grid and the column exactly as it was, for every scheme,
refinement and time step; hence a run returns the column as it was, and a run that takes its
schedule reports the line.
-/

namespace IceEnthalpy

namespace Conduction

/-- The line `a + b·z` on the levels `j·Δz` satisfies the equation of every level of a step from
itself, when each end holds it: by its value, `a` at the base and `a + b·top·Δz` at the surface, or by its
gradient `b`. -/
theorem level_affine
    {top : Nat} {dz r θ a b : ℝ} {base surface : Edge ℝ}
    (htop : 0 < top)
    (hbase : base = .value a ∨ base = .gradient b)
    (hsurface : surface = .value (a + b * (top * dz)) ∨ surface = .gradient b)
    (i : Nat) :
    Level top dz r θ base surface (fun j => a + b * (j * dz)) (fun j => a + b * (j * dz)) i := by
  have hbelow : ((top - 1 : Nat) : ℝ) = top - 1 := by
    rw [Nat.cast_sub (by omega), Nat.cast_one]
  unfold Level
  split_ifs with h0 hlast
  · rcases hbase with rfl | rfl
    · simp
    · apply balanced_flat
      push_cast
      ring
  · rcases hsurface with rfl | rfl
    · rfl
    · apply balanced_flat
      dsimp only
      rw [hbelow]
      ring
  · apply balanced_flat
    dsimp only
    rw [Nat.cast_sub (Nat.one_le_iff_ne_zero.mpr h0)]
    push_cast
    ring

/-- On a grid built for a column of height `H`, the line on the grid advances itself between
edges that hold it. -/
theorem advances_affine
    (s : Conduction ℝ) {m : Nat} {H a b : ℝ} {base surface : Edge ℝ}
    (hgrid : Grid.build m H = .ok s.grid)
    (hbase : base = .value a ∨ base = .gradient b)
    (hsurface : surface = .value (a + b * H) ∨ surface = .gradient b)
    (he : s.enthalpy = s.grid.z.map fun z => a + b * z) :
    s.Advances base surface (s.grid.z.map fun z => a + b * z) := by
  have hn : 2 ≤ s.grid.levels := s.grid.two_le_size
  have hread : ∀ j ≤ s.grid.levels - 1,
      (s.grid.z.map fun z => a + b * z).getD j 0 = a + b * (j * s.grid.spacing) :=
    fun j hj => s.getD_map_of_levels (fun k hk => Grid.getElem_z_of_build hgrid hk) _ (by omega)
  refine ⟨by simp [Grid.levels], fun i hi => ?_⟩
  refine (level_congr (by omega) (fun j hj => ?_) hread (by omega)).mpr
    (level_affine (by omega) hbase ?_ i)
  · rw [he]
    exact hread j hj
  · rwa [Grid.length_of_build hgrid]

/-- A condition that holds an end at the value `v`, or lets the heat flux `K·b` through it, is
stored as the value `v` or the gradient `b`. -/
theorem toEdge_of_holds
    {K v b : ℝ} {condition : Condition ℝ}
    (hK : K ≠ 0)
    (h : condition = .dirichlet v ∨ condition = .heatFlux (K * b)) :
    condition.toEdge K = .value v ∨ condition.toEdge K = .gradient b := by
  rcases h with rfl | rfl
  · exact .inl rfl
  · exact .inr (by rw [Condition.toEdge, mul_div_cancel_left₀ b hK])

/-- Read exactly, a step from a column that fits the solver solves from the column's profile read
at the solver's levels, between the edges the conditions leave, and remaps what it returns. -/
theorem advance_eq_of_solve
    {s next : Conduction ℝ} {c c' : Column ℝ} {conditions : Conditions ℝ} {profile x : Array ℝ}
    (hgrid : c.grid = s.column)
    (hother : otherPhysics c = none)
    (hprofile : Interpolation.interpolate s.column.z c.enthalpy s.grid.z = profile)
    (hsolve : ({ s with
        enthalpy := profile
        phase := .ready (some (conditions.base.toEdge s.conductivity))
          (some (conditions.surface.toEdge s.conductivity)) } : Conduction ℝ).solve =
      .ok (x, next))
    (hremap : next.remap x c = .ok c') :
    ((Stepper.advance c conditions).run.run s).run = (.ok (x, c'), next) := by
  have hprepare : s.prepare c false c.grid.height =
      .ok { s with enthalpy := profile, phase := .ready none none } := by
    rw [prepare_of_fits thickness_exact hgrid hother, hprofile]
  have hbase : ({ s with enthalpy := profile, phase := .ready none none } : Conduction ℝ).impose
      .base conditions.base =
      .ok { s with
        enthalpy := profile
        phase := .ready (some (conditions.base.toEdge s.conductivity)) none } := by
    simp [impose]
  have hsurface : ({ s with
        enthalpy := profile
        phase := .ready (some (conditions.base.toEdge s.conductivity)) none } :
      Conduction ℝ).impose .surface conditions.surface =
      .ok { s with
        enthalpy := profile
        phase := .ready (some (conditions.base.toEdge s.conductivity))
          (some (conditions.surface.toEdge s.conductivity)) } := by
    simp [impose]
  exact advance_eq_ok hprepare hbase hsurface hsolve hremap

/-- A remap that reads back the column's own profile at the column's levels returns the column
as it was. -/
theorem remap_eq_self
    {s : Conduction ℝ} {c : Column ℝ} {x : Array ℝ}
    (hsize : x.size = s.grid.levels)
    (hgrid : c.grid = s.column)
    (hinterpolate : Interpolation.interpolate s.grid.z x c.z = c.enthalpy) :
    s.remap x c = .ok c := by
  have hlevels : c.grid.levels = s.column.levels := by
    rw [hgrid]
  unfold remap
  rw [if_neg (not_not_intro hsize), if_neg (not_not_intro hlevels), hinterpolate,
    Column.setProfile_of_size c c.size_enthalpy]
  rfl

section Step

variable {n : Nat} {H : ℝ} {g : Grid ℝ} {dt : ℝ} {p : Ice.Properties ℝ} {setup : Setup}
variable {s₀ : Conduction ℝ} {a b : ℝ} {conditions : Conditions ℝ} {c : Column ℝ}

/-- One step of the cycle on a column that holds the line `a + b·z` and nothing else, with
conditions that hold the line: the solver returns the line on its own grid, the column comes back
as it was, and the solver is left idle holding the line. -/
theorem advance_affine
    (hg : Grid.build n H = .ok g)
    (hbuild : build g dt p setup = .ok s₀)
    (hbase : conditions.base = .dirichlet a ∨
      conditions.base = .heatFlux (p.enthalpyConductivity * b))
    (hsurface : conditions.surface = .dirichlet (a + b * H) ∨
      conditions.surface = .heatFlux (p.enthalpyConductivity * b))
    (hgrid : c.grid = g)
    (hother : otherPhysics c = none)
    (hline : c.enthalpy = g.z.map fun z => a + b * z)
    (e : Array ℝ) (ph : Phase ℝ) :
    ((Stepper.advance c conditions).run.run { s₀ with enthalpy := e, phase := ph }).run =
      (.ok (s₀.grid.z.map fun z => a + b * z, c),
        { s₀ with enthalpy := s₀.grid.z.map fun z => a + b * z, phase := .idle }) := by
  obtain ⟨hcolumn, -⟩ := fields_of_build hbuild
  obtain ⟨-, hcheck, hfine⟩ := fine_of_build hbuild
  obtain ⟨hdt, hD⟩ := zero_lt_of_build hbuild
  rw [Grid.height_of_build hg] at hfine
  have hKne := (Ice.Properties.zero_lt_enthalpyConductivity hcheck).ne'
  have hbaseEdge := toEdge_of_holds hKne hbase
  have hsurfaceEdge := toEdge_of_holds hKne hsurface
  rw [← conductivity_of_build hbuild] at hbaseEdge hsurfaceEdge
  have hinterpolate : Interpolation.interpolate s₀.column.z c.enthalpy s₀.grid.z =
      s₀.grid.z.map fun z => a + b * z := by
    rw [hcolumn, hline]
    exact Grid.interpolate_affine_of_build hg hfine a b
  have hsolve := (solve_ready_eq_ok_iff s₀ hD.le hdt.le).mpr
    (advances_affine { s₀ with enthalpy := s₀.grid.z.map fun z => a + b * z } hfine hbaseEdge
      hsurfaceEdge rfl)
  have hinterpolate' : Interpolation.interpolate s₀.grid.z (s₀.grid.z.map fun z => a + b * z)
      c.z = c.enthalpy := by
    rw [Column.z, hgrid, hline]
    exact Grid.interpolate_affine_of_build hfine hg a b
  have hremap :
      ({ s₀ with enthalpy := s₀.grid.z.map fun z => a + b * z, phase := .idle } :
        Conduction ℝ).remap (s₀.grid.z.map fun z => a + b * z) c = .ok c :=
    remap_eq_self (by simp [Grid.levels]) (hgrid.trans hcolumn.symm) hinterpolate'
  exact advance_eq_of_solve (s := { s₀ with enthalpy := e, phase := ph })
    (hgrid.trans hcolumn.symm) hother hinterpolate hsolve hremap

end Step

end Conduction

namespace Run

variable {σ : Type} [Stepper σ ℝ] {conditions : Conditions ℝ} {c : Column ℝ}
variable {x : Array ℝ} {S : σ → Prop} {s' : σ}

/-- A march whose every step returns the profile `x` and the column as it was, from every solver
state of `S` to the state `s'` of `S`, takes its `k` steps and returns the column as it was; it
reports `x`, or the profile it started with when it takes no step. -/
theorem march_of_steady
    (hstep : ∀ s, S s → ((Stepper.advance c conditions).run.run s).run = (.ok (x, c), s'))
    (hs' : S s')
    (dt : ℝ) :
    ∀ (k j : Nat) (t : ℝ) (profile : Array ℝ) (s : σ), S s →
      march conditions dt k j t profile c s =
        (.ok ⟨if k = 0 then profile else x, (· + dt)^[k] t, j + k⟩, c, if k = 0 then s else s') := by
  intro k
  induction k with
  | zero =>
      intro j t profile s hs
      rfl
  | succ k ih =>
      intro j t profile s hs
      rw [march, hstep s hs]
      dsimp only
      rw [ih (j + 1) (t + dt) x s' hs', Function.iterate_succ_apply, Nat.add_right_comm,
        Nat.add_assoc]
      simp

/-- A run whose every step returns the profile `x` and the column as it was returns the column as
it was, whatever its time step and final time; when the time step is the solver's and the
schedule is within the limit, it takes its `⌈t_final/Δt⌉` steps and reports `x`, or the column's
profile when it takes none. -/
theorem run_of_steady
    (hstep : ∀ s, S s → ((Stepper.advance c conditions).run.run s).run = (.ok (x, c), s'))
    (hs' : S s')
    {s : σ} (hs : S s)
    (limit : Nat) (dt : Positive ℝ) (tFinal : NonNegative ℝ) :
    (IceEnthalpy.run limit c s conditions dt tFinal).2.1 = c ∧
      (Stepper.timeStep s = dt.val → ⌈tFinal.val / dt.val⌉₊ ≤ limit →
        (IceEnthalpy.run limit c s conditions dt tFinal).1 =
          .ok ⟨if ⌈tFinal.val / dt.val⌉₊ = 0 then c.enthalpy else x,
            ⌈tFinal.val / dt.val⌉₊ * dt.val, ⌈tFinal.val / dt.val⌉₊⟩) := by
  have hmarch := march_of_steady hstep hs' dt.val
  constructor
  · unfold IceEnthalpy.run
    dsimp only
    split
    · rfl
    · split
      · rfl
      · rw [hmarch _ _ _ _ _ hs]
  · intro htime hlimit
    have hdt := Exact.zero_lt_positive dt
    have hmatch : ¬(Scalar.abs (dt.val - Stepper.timeStep s) > stepTolerance * dt.val) := by
      rw [htime]
      exact step_exact _ dt.property
    unfold IceEnthalpy.run
    dsimp only
    rw [if_neg hmatch, Schedule.count_eq hdt hlimit]
    dsimp only
    rw [hmarch _ _ _ _ _ hs, add_right_iterate_apply, zero_add, nsmul_eq_mul]
    norm_num

end Run

namespace Conduction

/-- On every column grid, with every scheme, refinement and time step, read exactly: when a column
holds the line `a + b·z` and nothing else, and each end holds the line (the value `a` at the
base or `a + b·H` at the surface, or the heat flux `K·b` at either end), one step of the cycle
returns the line on the solver's grid and the column as it was.  Hence every run returns the
column as it was, and a run that takes its `⌈t_final/Δt⌉` steps reports the line. -/
theorem advance_keeps_line
    {n : Nat} {H : ℝ} {g : Grid ℝ} {dt : ℝ} {p : Ice.Properties ℝ} {setup : Setup}
    {s₀ : Conduction ℝ} {a b : ℝ} {conditions : Conditions ℝ} {c : Column ℝ}
    (hg : Grid.build n H = .ok g)
    (hbuild : build g dt p setup = .ok s₀)
    (hbase : conditions.base = .dirichlet a ∨
      conditions.base = .heatFlux (p.enthalpyConductivity * b))
    (hsurface : conditions.surface = .dirichlet (a + b * H) ∨
      conditions.surface = .heatFlux (p.enthalpyConductivity * b))
    (hgrid : c.grid = g)
    (hother : otherPhysics c = none)
    (hline : c.enthalpy = g.z.map fun z => a + b * z) :
    (∀ e ph, ((Stepper.advance c conditions).run.run { s₀ with enthalpy := e, phase := ph }).run =
        (.ok (s₀.grid.z.map fun z => a + b * z, c),
          { s₀ with enthalpy := s₀.grid.z.map fun z => a + b * z, phase := .idle })) ∧
      ∀ (limit : Nat) (dtRun : Positive ℝ) (tFinal : NonNegative ℝ) (e : Array ℝ) (ph : Phase ℝ),
        (run limit c { s₀ with enthalpy := e, phase := ph } conditions dtRun tFinal).2.1 = c ∧
          (dtRun.val = dt → ⌈tFinal.val / dtRun.val⌉₊ ≤ limit →
            (run limit c { s₀ with enthalpy := e, phase := ph } conditions dtRun tFinal).1 =
              .ok ⟨if ⌈tFinal.val / dtRun.val⌉₊ = 0 then c.enthalpy
                  else s₀.grid.z.map fun z => a + b * z,
                ⌈tFinal.val / dtRun.val⌉₊ * dtRun.val, ⌈tFinal.val / dtRun.val⌉₊⟩) := by
  have hstep := advance_affine hg hbuild hbase hsurface hgrid hother hline
  refine ⟨hstep, fun limit dtRun tFinal e ph => ?_⟩
  obtain ⟨-, -, -, -, hdt, -⟩ := fields_of_build hbuild
  have hrun := Run.run_of_steady (S := fun s => ∃ e ph, s = { s₀ with enthalpy := e, phase := ph })
    (fun s ⟨e, ph, hs⟩ => hs ▸ hstep e ph) ⟨_, _, rfl⟩ ⟨e, ph, rfl⟩ limit dtRun tFinal
  refine ⟨hrun.1, fun htime hlimit => hrun.2 ?_ hlimit⟩
  exact hdt.trans htime.symm

/-- A Crank–Nicolson solver for polar ice, refined twice on a column of three levels spanning
100 m, keeps the line `1000 + 2·z` held by its base value and the flux `2·K` at the surface. -/
theorem advance_keeps_line_refined :
    ∃ (g : Grid ℝ) (s₀ : Conduction ℝ) (c : Column ℝ),
      Grid.build 3 100 = .ok g ∧
      build g 3.15e7 Ice.Properties.standard ⟨.crankNicolson, 2⟩ = .ok s₀ ∧
      c.grid = g ∧ otherPhysics c = none ∧ c.enthalpy = (g.z.map fun z => 1000 + 2 * z) ∧
      (∀ e ph, ((Stepper.advance c ⟨.dirichlet 1000,
          .heatFlux (Ice.Properties.standard.enthalpyConductivity * 2)⟩).run.run
          { s₀ with enthalpy := e, phase := ph }).run =
        (.ok (s₀.grid.z.map fun z => 1000 + 2 * z, c),
          { s₀ with enthalpy := s₀.grid.z.map fun z => 1000 + 2 * z, phase := .idle })) ∧
      ∀ (limit : Nat) (dtRun : Positive ℝ) (tFinal : NonNegative ℝ) (e : Array ℝ) (ph : Phase ℝ),
        (run limit c { s₀ with enthalpy := e, phase := ph }
          ⟨.dirichlet 1000, .heatFlux (Ice.Properties.standard.enthalpyConductivity * 2)⟩
          dtRun tFinal).2.1 = c ∧
        (dtRun.val = 3.15e7 → ⌈tFinal.val / dtRun.val⌉₊ ≤ limit →
          (run limit c { s₀ with enthalpy := e, phase := ph }
            ⟨.dirichlet 1000, .heatFlux (Ice.Properties.standard.enthalpyConductivity * 2)⟩
            dtRun tFinal).1 =
            .ok ⟨if ⌈tFinal.val / dtRun.val⌉₊ = 0 then c.enthalpy
                else s₀.grid.z.map fun z => 1000 + 2 * z,
              ⌈tFinal.val / dtRun.val⌉₊ * dtRun.val, ⌈tFinal.val / dtRun.val⌉₊⟩) := by
  obtain ⟨g, hg⟩ := Grid.build_eq_ok (n := 3) (H := 100) (by decide) (by norm_num)
  obtain ⟨s₀, hs₀⟩ :=
    build_standard_eq_ok hg (by norm_num : (0 : ℝ) < 3.15e7) ⟨.crankNicolson, 2⟩ (by decide)
  have hsize : (g.z.map fun z => (1000 : ℝ) + 2 * z).size = (Column.zeroed g).grid.levels := by
    simp [Column.zeroed, Grid.levels]
  obtain ⟨c, hc⟩ : ∃ c, (Column.zeroed g).setProfile (g.z.map fun z => 1000 + 2 * z) = .ok c :=
    ⟨_, Column.setProfile_of_size _ hsize⟩
  obtain ⟨hline, hgrid, -⟩ := Column.fields_of_setProfile hc
  have hother : otherPhysics c = none := by
    rw [otherPhysics_of_setProfile hc]
    exact otherPhysics_reset (by simp) (Column.zeroed g)
  refine ⟨g, s₀, c, hg, hs₀, hgrid, hother, hline, ?_⟩
  exact advance_keeps_line hg hs₀ (.inl rfl) (.inr rfl) hgrid hother hline

end Conduction

end IceEnthalpy
