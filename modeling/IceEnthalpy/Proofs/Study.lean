import IceEnthalpy.Proofs.Basic
import IceEnthalpy.Study.Convergence

/-!
# The order of a convergence study

A study calls its run on the points of a sweep, one after the other, and the run may keep a
state between calls.  Its behaviour is read off `unroll`, which calls the run on a list of points
in order, once each, and records every outcome and the state the calls leave.

When the calls on the first `j` points succeed and the call on point `j` fails, the study fails
with that failure, its index and its parameter, and leaves the state of exactly those `j + 1`
calls: no later point is run.  When every call succeeds, the samples pair each point's
parameter with its own norms, in sweep order, and the two power laws are fitted to them, the
largest errors first, so that their failure is the one reported.

The convergence of verification runs is the study whose run keeps no state and verifies each
point: a point whose time step or final time fails its sign requirement fails the study there,
with the sign failure as the cause.
-/

namespace IceEnthalpy
namespace Study

section Calls

variable {α τ β : Type}

/-- The outcomes of a run called on points in order, once each, and the state it leaves. -/
def unroll (run : SamplePoint α → StateM τ β) : List (SamplePoint α) → τ → List β × τ
  | [], s => ([], s)
  | p :: ps, s =>
      let first := (run p).run s
      let rest := unroll run ps first.2
      (first.1 :: rest.1, rest.2)

@[simp] theorem unroll_nil (run : SamplePoint α → StateM τ β) (s : τ) :
    unroll run [] s = ([], s) :=
  rfl

@[simp] theorem unroll_cons (run : SamplePoint α → StateM τ β) (p : SamplePoint α)
    (ps : List (SamplePoint α)) (s : τ) :
    unroll run (p :: ps) s =
      (((run p).run s).1 :: (unroll run ps ((run p).run s).2).1,
        (unroll run ps ((run p).run s).2).2) :=
  rfl

/-- A run that keeps no state returns its outcomes point by point and leaves the state alone. -/
theorem unroll_pure (f : SamplePoint α → β) :
    ∀ (ps : List (SamplePoint α)) (s : τ),
      unroll (fun p => (pure (f p) : StateM τ β)) ps s = (ps.map f, s)
  | [], _ => rfl
  | p :: ps, s => by
      simp only [unroll_cons, List.map_cons]
      exact congrArg₂ (fun l t => (f p :: l, t)) (congrArg Prod.fst (unroll_pure f ps s))
        (congrArg Prod.snd (unroll_pure f ps s))

@[simp] theorem length_unroll (run : SamplePoint α → StateM τ β) :
    ∀ (ps : List (SamplePoint α)) (s : τ), (unroll run ps s).1.length = ps.length
  | [], _ => rfl
  | p :: ps, s => by
      simp only [unroll_cons, List.length_cons, length_unroll run ps]

end Calls

/-- The samples of points and their norms, one per point, in order. -/
def samplesOf {α : Type} (ps : List (SamplePoint α)) (ns : List (Norms α)) : List (Sample α) :=
  List.zipWith (fun p n => ⟨p.parameter, n.maxError, n.avgError⟩) ps ns

section Samples

variable {α : Type}

/-- The samples of as many norms as points keep the points' parameters and the norms' errors. -/
theorem map_samplesOf :
    ∀ (ps : List (SamplePoint α)) (ns : List (Norms α)), ps.length = ns.length →
      (samplesOf ps ns).map (·.parameter) = ps.map (·.parameter) ∧
        (samplesOf ps ns).map (·.maxError) = ns.map (·.maxError) ∧
        (samplesOf ps ns).map (·.avgError) = ns.map (·.avgError)
  | [], [], _ => ⟨rfl, rfl, rfl⟩
  | p :: ps, n :: ns, hlen => by
      obtain ⟨hparameter, hmax, havg⟩ := map_samplesOf ps ns (by simpa using hlen)
      simp only [samplesOf, List.zipWith_cons_cons, List.map_cons] at hparameter hmax havg ⊢
      exact ⟨by rw [hparameter], by rw [hmax], by rw [havg]⟩
  | [], _ :: _, hlen | _ :: _, [], hlen => by simp at hlen

end Samples

section Stateful

variable {α ε τ : Type} (run : SamplePoint α → StateM τ (Except ε (Norms α)))

/-- A failing call ends the collection at its point. -/
theorem run_collect_error
    {index : Nat} {p : SamplePoint α} {rest : List (SamplePoint α)} {s s₁ : τ} {e : ε}
    (h : (run p).run s = (.error e, s₁)) :
    (collect run index (p :: rest)).run s = (.error (.sample index p.parameter e), s₁) := by
  rw [collect, StateT.run_bind, h]
  rfl

/-- A successful call adds its sample in front of those of the points after it. -/
theorem run_collect_ok
    {index : Nat} {p : SamplePoint α} {rest : List (SamplePoint α)} {s s₁ : τ} {n : Norms α}
    (h : (run p).run s = (.ok n, s₁)) :
    (collect run index (p :: rest)).run s =
      Prod.map (Except.map (⟨p.parameter, n.maxError, n.avgError⟩ :: ·)) id
        ((collect run (index + 1) rest).run s₁) := by
  rw [collect, StateT.run_bind, h]
  change ((collect run (index + 1) rest >>= fun r => _).run s₁) = _
  rw [StateT.run_bind]
  rcases (collect run (index + 1) rest).run s₁ with ⟨_ | samples, s₂⟩ <;> rfl

/-- When every call succeeds, the collection has one sample per point, in order, and leaves the
state of all the calls. -/
theorem run_collect_of_ok :
    ∀ (ps : List (SamplePoint α)) (index : Nat) (s : τ) (ns : List (Norms α)),
      (unroll run ps s).1 = ns.map .ok →
      (collect run index ps).run s = (.ok (samplesOf ps ns), (unroll run ps s).2)
  | [], _, _, [], _ => rfl
  | [], _, _, _ :: _, h => by simp at h
  | _ :: _, _, _, [], h => by simp at h
  | p :: ps, index, s, n :: ns, h => by
      simp only [unroll_cons, List.map_cons, List.cons.injEq] at h
      obtain ⟨hfirst, hrest⟩ := h
      have hrun : (run p).run s = (.ok n, ((run p).run s).2) := Prod.ext hfirst rfl
      rw [run_collect_ok run hrun, run_collect_of_ok ps (index + 1) _ ns hrest, unroll_cons]
      rfl

/-- When the calls on the points before `j` succeed and the call on point `j` fails, the
collection fails there with that failure and leaves the state of those `j + 1` calls. -/
theorem run_collect_of_error :
    ∀ (ps : List (SamplePoint α)) (index : Nat) (s : τ) (ns : List (Norms α))
      (p : SamplePoint α) (e : ε),
      ps[ns.length]? = some p →
      (unroll run (ps.take (ns.length + 1)) s).1 = ns.map .ok ++ [.error e] →
      (collect run index ps).run s =
        (.error (.sample (index + ns.length) p.parameter e),
          (unroll run (ps.take (ns.length + 1)) s).2)
  | [], _, _, _, _, _, hp, _ => by simp at hp
  | p' :: ps, index, s, [], p, e, hp, h => by
      simp only [List.length_nil, List.getElem?_cons_zero, Option.some.injEq] at hp
      subst hp
      simp only [List.length_nil, zero_add, List.take_succ_cons, List.take_zero, unroll_cons,
        unroll_nil, List.map_nil, List.nil_append, List.cons.injEq, and_true] at h ⊢
      rw [run_collect_error run (Prod.ext h rfl), Nat.add_zero]
  | p' :: ps, index, s, n :: ns, p, e, hp, h => by
      simp only [List.length_cons, List.getElem?_cons_succ] at hp
      simp only [List.length_cons, List.take_succ_cons, unroll_cons, List.map_cons,
        List.cons_append, List.cons.injEq] at h ⊢
      obtain ⟨hfirst, hrest⟩ := h
      have hrun : (run p').run s = (.ok n, ((run p').run s).2) := Prod.ext hfirst rfl
      rw [run_collect_ok run hrun, run_collect_of_error ps (index + 1) _ ns p e hp hrest]
      simp only [Prod.map, Except.map, id, Nat.add_assoc, Nat.add_comm 1]

/-- A study whose run keeps no state computes as the same study in the state monad, whose state
it never touches. -/
theorem collect_pure_run (f : SamplePoint α → Except ε (Norms α)) :
    ∀ (index : Nat) (ps : List (SamplePoint α)) (s : τ),
      (collect (m := StateM τ) (fun p => pure (f p)) index ps).run s =
        (Id.run (collect (m := Id) (fun p => pure (f p)) index ps), s)
  | _, [], _ => rfl
  | index, p :: ps, s => by
      cases hf : f p with
      | error e =>
          rw [run_collect_error _ (by rw [hf]; rfl)]
          simp only [collect, hf]
          rfl
      | ok n =>
          rw [run_collect_ok _ (by rw [hf]; rfl), collect_pure_run f (index + 1) ps s]
          simp only [collect, hf, pure_bind]
          generalize collect (m := Id) (fun p => pure (f p)) (index + 1) ps = rest
          rcases rest with _ | _ <;> rfl

variable [Scalar α] (sweep : Sweep α) (s : τ)

/-- When the calls on the points before `j` succeed and the call on point `j` fails, the study
fails there, naming the index, the parameter and the failure, and leaves the state of those
`j + 1` calls. -/
theorem run_estimateOrder_of_error
    {ns : List (Norms α)} {p : SamplePoint α} {e : ε}
    (hp : sweep.points[ns.length]? = some p)
    (hcalls : (unroll run (sweep.points.take (ns.length + 1)) s).1 = ns.map .ok ++ [.error e]) :
    (estimateOrder sweep run).run s =
      (.error (.sample ns.length p.parameter e),
        (unroll run (sweep.points.take (ns.length + 1)) s).2) := by
  rw [estimateOrder, StateT.run_bind, run_collect_of_error run _ 0 s ns p e hp hcalls,
    Nat.zero_add]
  rfl

/-- When every call succeeds, the study fits the power laws to the samples of the points and
their norms and leaves the state of all the calls. -/
theorem run_estimateOrder_of_ok
    {ns : List (Norms α)}
    (hcalls : (unroll run sweep.points s).1 = ns.map .ok) :
    (estimateOrder sweep run).run s =
      ((fitSamples sweep.kind (samplesOf sweep.points ns)).mapError .fit,
        (unroll run sweep.points s).2) := by
  rw [estimateOrder, StateT.run_bind, run_collect_of_ok run _ 0 s ns hcalls]
  rfl

end Stateful

section Fits

variable {α ε : Type} [Scalar α] (kind : SweepKind) {ps : List (SamplePoint α)}
  {ns : List (Norms α)}

/-- The fits of a study: the power law of the largest errors first, then that of the mean
errors, each against the points' parameters. -/
theorem fitSamples_cases
    (hlen : ps.length = ns.length) :
    (∀ f, PowerLaw.fit (ps.map (·.parameter)) (ns.map (·.maxError)) = .error f →
        (fitSamples kind (samplesOf ps ns)).mapError (StudyError.fit (ε := ε)) = .error (.fit f)) ∧
      (∀ mx f, PowerLaw.fit (ps.map (·.parameter)) (ns.map (·.maxError)) = .ok mx →
        PowerLaw.fit (ps.map (·.parameter)) (ns.map (·.avgError)) = .error f →
        (fitSamples kind (samplesOf ps ns)).mapError (StudyError.fit (ε := ε)) = .error (.fit f)) ∧
      (∀ mx av, PowerLaw.fit (ps.map (·.parameter)) (ns.map (·.maxError)) = .ok mx →
        PowerLaw.fit (ps.map (·.parameter)) (ns.map (·.avgError)) = .ok av →
        (fitSamples kind (samplesOf ps ns)).mapError (StudyError.fit (ε := ε)) =
          .ok ⟨kind, samplesOf ps ns, mx, av⟩) := by
  obtain ⟨hparameter, hmax, havg⟩ := map_samplesOf ps ns hlen
  refine ⟨fun f hf => ?_, fun mx f hmx hf => ?_, fun mx av hmx hav => ?_⟩
  · rw [fitSamples, hparameter, hmax, hf]
    rfl
  · rw [fitSamples, hparameter, hmax, havg, hmx, Outcome.ok_bind, hf]
    rfl
  · rw [fitSamples, hparameter, hmax, havg, hmx, Outcome.ok_bind, hav]
    rfl

end Fits

section Verification

variable {σ α : Type} [Scalar α] [Stepper σ α] (limit : Nat) (factory : Factory σ α)
  (v : Verification α) (regime : Regime)

/-- A point whose times fail their sign requirements fails its verification with that cause. -/
theorem verify_of_scenario_error
    {p : SamplePoint α} {c : SignError}
    (h : p.scenario regime = .error c) :
    verify limit factory v regime p = .error (.time c) := by
  rw [verify, h]
  rfl

/-- The convergence of verification runs is the study whose run verifies each point and keeps
no state. -/
theorem convergence_eq_estimateOrder (sweep : Sweep α) :
    convergence limit factory v regime sweep =
      ((estimateOrder sweep fun p =>
        (pure (verify limit factory v regime p) : StateM Unit _)).run ()).1 := by
  rw [convergence, estimateOrder, estimateOrder, StateT.run_bind, collect_pure_run]
  generalize collect (m := Id) (fun p => pure (verify limit factory v regime p)) 0
    sweep.points = collected
  rcases collected with _ | _ <;> rfl

/-- A verification that fails at a point after points that all verify fails the convergence
there, with the verification's failure as the cause. -/
theorem convergence_of_error
    {sweep : Sweep α} {ns : List (Norms α)} {p : SamplePoint α} {e : ScenarioError α}
    (hp : sweep.points[ns.length]? = some p)
    (hbefore : (sweep.points.take ns.length).map (verify limit factory v regime) = ns.map .ok)
    (hfail : verify limit factory v regime p = .error e) :
    convergence limit factory v regime sweep = .error (.sample ns.length p.parameter e) := by
  have hcalls : (unroll (fun p => (pure (verify limit factory v regime p) : StateM Unit _))
      (sweep.points.take (ns.length + 1)) ()).1 = ns.map .ok ++ [.error e] := by
    rw [unroll_pure, List.take_add_one, hp, Option.toList_some, List.map_append, hbefore]
    simp [hfail]
  rw [convergence_eq_estimateOrder, run_estimateOrder_of_error _ sweep () hp hcalls]

end Verification

/-- A study calls its run on the points in sweep order, once each, whatever state the run keeps
between calls.  When the calls on the first `j` points succeed and the call on point `j` fails,
the study fails with the index `j`, the point's parameter and that failure as its cause, and
leaves the state of exactly those `j + 1` calls.  When every call succeeds, it leaves the state
of all of them, its samples pair each point's parameter with the norms of its own call, in
order, and it fits the largest errors first, reporting their failure before that of the mean
errors.  The convergence of verification runs is this study with a run that verifies each point
and keeps no state, so a point whose times fail their sign requirement, after points that all
verify, fails it there with the sign failure as the cause. -/
theorem estimateOrder_runs_points_in_order :
    (∀ {α ε τ : Type} [Scalar α] (run : SamplePoint α → StateM τ (Except ε (Norms α)))
        (sweep : Sweep α) (s : τ),
      (∀ (ns : List (Norms α)) (p : SamplePoint α) (e : ε),
        sweep.points[ns.length]? = some p →
        (unroll run (sweep.points.take (ns.length + 1)) s).1 = ns.map .ok ++ [.error e] →
        (estimateOrder sweep run).run s =
          (.error (.sample ns.length p.parameter e),
            (unroll run (sweep.points.take (ns.length + 1)) s).2)) ∧
      ∀ ns : List (Norms α), (unroll run sweep.points s).1 = ns.map .ok →
        ((estimateOrder sweep run).run s).2 = (unroll run sweep.points s).2 ∧
        (∀ f, PowerLaw.fit (sweep.points.map (·.parameter)) (ns.map (·.maxError)) = .error f →
          ((estimateOrder sweep run).run s).1 = .error (.fit f)) ∧
        (∀ mx f, PowerLaw.fit (sweep.points.map (·.parameter)) (ns.map (·.maxError)) = .ok mx →
          PowerLaw.fit (sweep.points.map (·.parameter)) (ns.map (·.avgError)) = .error f →
          ((estimateOrder sweep run).run s).1 = .error (.fit f)) ∧
        ∀ mx av, PowerLaw.fit (sweep.points.map (·.parameter)) (ns.map (·.maxError)) = .ok mx →
          PowerLaw.fit (sweep.points.map (·.parameter)) (ns.map (·.avgError)) = .ok av →
          ((estimateOrder sweep run).run s).1 =
            .ok ⟨sweep.kind, samplesOf sweep.points ns, mx, av⟩) ∧
    ∀ {σ α : Type} [Scalar α] [Stepper σ α] (limit : Nat) (factory : Factory σ α)
      (v : Verification α) (regime : Regime) (sweep : Sweep α),
      convergence limit factory v regime sweep =
          ((estimateOrder sweep fun p =>
            (pure (verify limit factory v regime p) : StateM Unit _)).run ()).1 ∧
        ∀ (ns : List (Norms α)) (p : SamplePoint α) (c : SignError),
          sweep.points[ns.length]? = some p →
          (sweep.points.take ns.length).map (verify limit factory v regime) = ns.map .ok →
          p.scenario regime = .error c →
          convergence limit factory v regime sweep =
            .error (.sample ns.length p.parameter (.time c)) := by
  refine ⟨fun run sweep s =>
    ⟨fun ns p e hp hcalls => run_estimateOrder_of_error run sweep s hp hcalls,
      fun ns hcalls => ?_⟩, fun limit factory v regime sweep =>
      ⟨convergence_eq_estimateOrder limit factory v regime sweep,
        fun ns p c hp hbefore hscenario =>
          convergence_of_error limit factory v regime hp hbefore
            (verify_of_scenario_error limit factory v regime hscenario)⟩⟩
  have hlen : sweep.points.length = ns.length := by
    simpa using congrArg List.length hcalls
  obtain ⟨hmax, hboth, hok⟩ := fitSamples_cases (ε := _) sweep.kind hlen
  rw [run_estimateOrder_of_ok run sweep s hcalls]
  exact ⟨rfl, hmax, hboth, hok⟩

/-- A run that records the levels of the points it is given and fails on the point of two
levels succeeds on the first of three points and fails on the second: the study fails there,
at index `1` with that point's parameter, and the third point is never run. -/
theorem estimateOrder_runs_points_in_order_recorder :
    let sweep : Sweep Float :=
      ⟨.space, [⟨1.0, 1, 1.0, 1.0⟩, ⟨2.0, 2, 1.0, 1.0⟩, ⟨3.0, 3, 1.0, 1.0⟩]⟩
    let run : SamplePoint Float → StateM (List Nat) (Except Unit (Norms Float)) := fun p => do
      modify (· ++ [p.levels])
      return if p.levels = 2 then .error () else .ok ⟨0.0, 0.0⟩
    (unroll run (sweep.points.take 2) []).1 = [.ok ⟨0.0, 0.0⟩, .error ()] ∧
      (estimateOrder sweep run).run [] = (.error (.sample 1 2.0 ()), [1, 2]) := by
  intro sweep run
  have hcalls : (unroll run (sweep.points.take 2) []).1 = [.ok ⟨0.0, 0.0⟩, .error ()] := rfl
  refine ⟨hcalls, ?_⟩
  rw [(estimateOrder_runs_points_in_order.1 run sweep []).1 [⟨0.0, 0.0⟩] ⟨2.0, 2, 1.0, 1.0⟩ ()
    rfl hcalls]
  rfl

end Study
end IceEnthalpy
