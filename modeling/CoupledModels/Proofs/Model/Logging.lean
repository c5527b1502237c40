import CoupledModels.Proofs.Model.Operations

/-!
# What a model has been answered

A backend can note each problem that it is given, with its answer.  A run with such a backend does
what it does with the backend itself, so the notes say what has been answered without changing
anything.  `LoggedModel` is a model with the answers that it has got since its catalog was last built.
-/

namespace CoupledModels

variable {σ K : Type}

/-- Problems with the answers to them, in the order of the calls. -/
abbrev AnswerLog (K : Type) := List (LinearProblem K × Except ModelError (Solution K))

/-- A column is one of a problem that has been solved. -/
def AnswerLog.Decides (log : AnswerLog K) (column : Nat) : Prop :=
  ∃ e ∈ log, Solve.statusOf e.1 e.2 = .optimal ∧ column ∈ e.1.columns

theorem AnswerLog.Decides.append {log : AnswerLog K} {column : Nat} (h : log.Decides column)
    (more : AnswerLog K) : AnswerLog.Decides (log ++ more) column := by
  obtain ⟨e, he, hsolved, hcolumn⟩ := h
  exact ⟨e, List.mem_append_left _ he, hsolved, hcolumn⟩

/-- The backend that notes its problems and answers. -/
def Backend.logging (b : Backend σ K) : Backend (σ × AnswerLog K) K :=
  ⟨b.name, fun p o (s, log) =>
    let (r, s) := b.solve p o s
    (r, s, log ++ [(p, r)])⟩

theorem Backend.solve_logging (b : Backend σ K) (l : LinearProblem K) (o : SolveOptions) (s : σ)
    (log : AnswerLog K) :
    b.logging.solve l o (s, log) =
      ((b.solve l o s).1, (b.solve l o s).2, log ++ [(l, (b.solve l o s).1)]) := rfl

/-- Answers are noted in the order of the jobs. -/
theorem Solve.ask_logging (b : Backend σ K) (o : SolveOptions) (jobs : List (Job K)) (s : σ)
    (log : AnswerLog K) :
    ask b.logging o jobs (s, log) = ((ask b o jobs s).1, (ask b o jobs s).2,
      log ++ (ask b o jobs s).1.filterMap Prod.snd) := by
  induction jobs generalizing s log with
  | nil => simp [ask]
  | cons j jobs ih =>
      unfold ask
      cases hlinear : j.linear with
      | none => simp [ih]
      | some l => simp [Backend.solve_logging, ih]

variable [Scalar K] [Transcendental K]

namespace Model

theorem solveOnce_logging (b : Backend σ K) (o : SolveOptions) (m : Model K) (s : σ)
    (log : AnswerLog K) :
    solveOnce b.logging o m (s, log) = ((solveOnce b o m s).1, (solveOnce b o m s).2,
      log ++ (answers b o m s).filterMap Prod.snd) := by
  simp only [solveOnce, Solve.independent, Solve.ask_logging, answers]

/-- The system with notes does what the system without them does. -/
theorem projects_coupled (b : Backend σ K) (o : SolveOptions) (digits : UInt32) :
    (coupled b.logging o digits).Projects (Prod.map id Prod.fst) (coupled b o digits) where
  refresh := fun _ _ => rfl
  reset := fun _ => rfl
  solveAll := by
    rintro ⟨m, s, log⟩
    simp only [coupled, solveOnce_logging]
    rfl
  push := fun _ _ => rfl
  monitored := fun _ => rfl

end Model

/-- What a run has changed, without its notes. -/
def RunState.forget (s : RunState (σ × AnswerLog K) K) : RunState σ K :=
  ⟨s.model, s.store, s.backend.1⟩

namespace Model

theorem runIntegrated_logging (b : Backend σ K) (settings : Settings K) (o : SolveOptions)
    (clock : Nat → Duration) (s : RunState (σ × AnswerLog K) K) :
    (runIntegrated b.logging settings o clock s).map id RunState.forget =
      runIntegrated b settings o clock s.forget := by
  unfold runIntegrated
  split
  · rfl
  rename_i l hl
  have hrun := ConvergenceLoop.run_projects (projects_coupled b o settings.roundDigits) l clock
    ((s.model, s.backend), s.store)
  have hstart : (((s.model, s.backend), s.store) : (Model K × σ × AnswerLog K) × Store K).map
      (Prod.map id Prod.fst) id = ((s.forget.model, s.forget.backend), s.forget.store) := rfl
  rw [hstart] at hrun
  rw [← hrun]
  rcases l.run (coupled b.logging o settings.roundDigits) clock ((s.model, s.backend), s.store)
    with ⟨r, ⟨m, memory⟩, store⟩
  rfl

theorem runOnce_logging (b : Backend σ K) (settings : Settings K) (o : SolveOptions)
    (s : RunState (σ × AnswerLog K) K) :
    (runOnce b.logging settings o s).map id RunState.forget = runOnce b settings o s.forget := by
  obtain ⟨m, store, memory, log⟩ := s
  simp only [runOnce, solveOnce_logging]
  rfl

/-- Notes change nothing of a run. -/
theorem solve_logging (b : Backend σ K) (settings : Settings K) (policy : BuildPolicy)
    (clock : Nat → Duration) (s : RunState (σ × AnswerLog K) K) :
    (solve b.logging settings policy clock s).map id RunState.forget =
      solve b settings policy clock s.forget := by
  obtain ⟨m, store, memory⟩ := s
  simp only [solve, RunState.forget]
  split
  · rfl
  rcases m.build policy with ⟨_ | outcome, m₁⟩
  · rfl
  dsimp only
  rcases m₁.loadExogenous store with ⟨_ | _, m₂⟩
  · rfl
  simp only [runBuilt]
  split
  · rfl
  split
  · exact runIntegrated_logging b settings _ clock ⟨m₂, store, memory⟩
  · exact runOnce_logging b settings _ ⟨m₂, store, memory⟩

end Model

/-! ## Models with their answers -/

/-- A model with the answers that it has got since its catalog was last built. -/
structure LoggedModel (K : Type) where
  model : Model K
  log : AnswerLog K

namespace LoggedModel

/-- The model and its answers after an operation.  A reload builds the catalog anew, so that the
answers before it no longer count. -/
def perform (s : LoggedModel K) : Model.Operation K → LoggedModel K
  | .solve b settings policy clock store memory =>
      let t := (Model.solve b.logging settings policy clock ⟨s.model, store, memory, s.log⟩).2
      ⟨t.model, t.backend.2⟩
  | .reloadDimension store id =>
      match s.model.reloadDimension store id with
      | (.ok _, m) => ⟨m, []⟩
      | (.error _, m) => ⟨m, s.log⟩
  | op => ⟨s.model.perform op, s.log⟩

/-- The model and its answers after some operations. -/
def performAll (s : LoggedModel K) (ops : List (Model.Operation K)) : LoggedModel K :=
  ops.foldl perform s

/-- Keeping the answers changes nothing of the model. -/
theorem model_perform (s : LoggedModel K) (op : Model.Operation K) :
    (s.perform op).model = s.model.perform op := by
  cases op with
  | build policy => rfl
  | loadExogenous store => rfl
  | solve b settings policy clock store memory =>
      exact congrArg (fun r => r.2.model)
        (Model.solve_logging b settings policy clock ⟨s.model, store, memory, s.log⟩)
  | requestResolve => rfl
  | reloadDimension store id =>
      simp only [perform, Model.perform]
      rcases s.model.reloadDimension store id with ⟨r, m⟩
      cases r <;> rfl

theorem model_performAll (s : LoggedModel K) (ops : List (Model.Operation K)) :
    (s.performAll ops).model = s.model.performAll ops := by
  induction ops generalizing s with
  | nil => rfl
  | cons op ops ih => exact (ih (s.perform op)).trans (by rw [model_perform]; rfl)

end LoggedModel

end CoupledModels
