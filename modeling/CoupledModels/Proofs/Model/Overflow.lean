import CoupledModels.Model.Overflow
import CoupledModels.Proofs.Solve.Course

/-!
# Watching a run for overflows

A note changes nothing of the system that it is taken of, so a run that is watched goes the way of
the run itself.  What it gives, unless a shift overflows, is what `Model.solve` gives.
-/

namespace CoupledModels

variable {σ K : Type}

theorem CoupledSystem.projects_noting (sys : CoupledSystem σ K) (fails : σ → Bool) :
    (sys.noting fails).Projects Prod.fst sys where
  refresh := fun _ _ => rfl
  reset := fun _ => rfl
  solveAll := fun _ => rfl
  push := fun _ _ => rfl
  monitored := fun _ => rfl

namespace Model

variable [Scalar K] [Transcendental K] {b : Backend σ K} {settings : Settings K}
  {clock : Nat → Duration} {s : RunState σ K} {r : Except ModelError (RunReport K) × RunState σ K}

theorem runIntegrated?_eq {o : SolveOptions} (h : runIntegrated? b settings o clock s = some r) :
    r = runIntegrated b settings o clock s := by
  unfold runIntegrated? at h
  unfold runIntegrated
  cases hloop : settings.convergenceLoop? with
  | none =>
      rw [hloop] at h
      exact (Option.some.inj h).symm
  | some l =>
      have hprojects := CoupledSystem.projects_noting (coupled b o settings.roundDigits)
        fun t => t.1.overflows
      have hrun := ConvergenceLoop.run_projects hprojects l clock
        (((s.model, s.backend), false), s.store)
      dsimp only [Prod.map, id] at hrun
      simp only [hloop] at h
      simp only [← hrun]
      split at h
      · cases h
      · exact (Option.some.inj h).symm

theorem runOnce?_eq {o : SolveOptions} (h : runOnce? b settings o s = some r) :
    r = runOnce b settings o s := by
  unfold runOnce? at h
  split at h
  · cases h
  · exact (Option.some.inj h).symm

theorem runBuilt?_eq (h : runBuilt? b settings clock s = some r) :
    r = runBuilt b settings clock s := by
  unfold runBuilt? at h
  unfold runBuilt
  cases hoptions : settings.solveOptions? with
  | none =>
      rw [hoptions] at h
      exact (Option.some.inj h).symm
  | some o =>
      simp only [hoptions] at h ⊢
      by_cases hintegrated : settings.integrated = true
      · rw [if_pos hintegrated] at h ⊢
        exact runIntegrated?_eq h
      · rw [if_neg hintegrated] at h ⊢
        exact runOnce?_eq h

/-- A run in which no shift overflows is the run with unbounded numbers. -/
theorem solve?_eq {policy : BuildPolicy} (h : solve? b settings policy clock s = some r) :
    r = solve b settings policy clock s := by
  unfold solve? at h
  unfold solve
  cases hvalid : settings.validate with
  | error e =>
      rw [hvalid] at h
      exact (Option.some.inj h).symm
  | ok _ =>
      rcases hbuild : s.model.build policy with ⟨_ | outcome, m⟩
      · simp only [hvalid, hbuild] at h
        exact (Option.some.inj h).symm
      · rcases hload : m.loadExogenous s.store with ⟨_ | _, m'⟩
        · simp only [hvalid, hbuild, hload] at h ⊢
          exact (Option.some.inj h).symm
        · simp only [hvalid, hbuild, hload] at h ⊢
          exact runBuilt?_eq h

end Model

end CoupledModels
